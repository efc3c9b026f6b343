import Mathlib.Data.List.Forall2
import Mqtt.Topic.Regex

/-!
# `Mqtt.Proofs.Topic.Regex`: matching and reading regular expressions

* `isMatch_iff`: `Regex.isMatch` finds out whether an expression matches
  some piece of a text.
* `acceptsEmpty_iff`, `after_iff`: the two steps behind it. The empty text
  is looked at in place, and a character is matched by what `Regex.after`
  leaves of the expression.
* `Spells`: which texts an expression without ends matches, wherever they
  stand. `Spells.many` cuts a text into pieces, and `spells_intercalate`
  joins expressions as texts are joined.
* `isMatch_anchored_iff`: between both ends, the piece is the whole text.
* `Reads`: a text that adds its parts to a draft, whatever was read
  before. `Reads.append` puts such texts in a row, `reads_escape` is the
  one for texts that were escaped, and `ofText?_of_reads` reads the whole.
-/

set_option autoImplicit false

namespace Mqtt.Regex

/-! ### Matching -/

section Matching

variable {r s : Regex} {c : Char} {before text rest : List Char}

/-- The empty expression in front of another adds nothing to it. -/
theorem matches_empty_seq_iff :
    (seq empty s).Matches before text rest ↔ s.Matches before text rest := by
  simp only [Matches]
  constructor
  · rintro ⟨u, v, rfl, rfl, h⟩
    simpa using h
  · intro h
    exact ⟨[], text, rfl, rfl, by simpa using h⟩

/-- The empty text is matched in two parts if both parts match it in place. -/
theorem matches_seq_nil_iff :
    (seq r s).Matches before [] rest ↔ r.Matches before [] rest ∧ s.Matches before [] rest := by
  simp only [Matches]
  constructor
  · rintro ⟨u, v, hw, hr, hs⟩
    obtain ⟨rfl, rfl⟩ : u = [] ∧ v = [] := by simpa using hw
    exact ⟨hr, by simpa using hs⟩
  · rintro ⟨hr, hs⟩
    exact ⟨[], [], rfl, hr, by simpa using hs⟩

/-- Putting two expressions in a row, with the empty one left out, does not change what
is matched. -/
theorem matches_andThen_iff :
    (r.andThen s).Matches before text rest ↔ (seq r s).Matches before text rest := by
  fun_cases andThen r s with
  | case1 => simp [Matches]
  | case2 => exact matches_empty_seq_iff.symm
  | case3 => simp [Matches]
  | case4 => rfl

/-- So it is with a choice from which the expression for nothing is left out. -/
theorem matches_orElse_iff :
    (r.orElse s).Matches before text rest ↔ (either r s).Matches before text rest := by
  fun_cases orElse r s <;> simp [Matches]

/-- Whether an expression matches the empty text depends on the ends only. -/
theorem acceptsEmpty_iff (r : Regex) (before rest : List Char) :
    r.acceptsEmpty before.isEmpty rest.isEmpty = true ↔ r.Matches before [] rest := by
  induction r with
  | nothing => simp [acceptsEmpty, Matches]
  | empty => simp [acceptsEmpty, Matches]
  | one set => simp [acceptsEmpty, Matches]
  | start => simp [acceptsEmpty, Matches]
  | stop => simp [acceptsEmpty, Matches]
  | seq r s ihr ihs => simp [acceptsEmpty, matches_seq_nil_iff, ihr, ihs]
  | either r s ihr ihs => simp [acceptsEmpty, Matches, ihr, ihs]
  | many r _ => simpa [acceptsEmpty, Matches] using Repeats.done

/-- A text with a first character that is cut into pieces has a first piece
with that character: the empty ones in front of it can be left out. -/
theorem repeats_cons_iff {P : List Char → List Char → List Char → Prop} :
    Repeats P before (c :: text) rest ↔
      ∃ u v, text = u ++ v ∧ P before (c :: u) (v ++ rest) ∧
        Repeats P (before ++ c :: u) v rest := by
  constructor
  · intro h
    generalize hw : c :: text = w at h
    induction h with
    | done => simp at hw
    | @more before piece further rest hpiece hrest ih =>
        cases piece with
        | nil => simpa using ih hw
        | cons d piece =>
            obtain ⟨rfl, rfl⟩ : c = d ∧ text = piece ++ further := by simpa using hw
            exact ⟨piece, further, rfl, hpiece, hrest⟩
  · rintro ⟨u, v, rfl, hpiece, hrest⟩
    exact .more hpiece hrest

/-- A text with a first character that is matched in two parts: the
character is in the first part, or this is empty. -/
theorem matches_seq_cons_iff :
    (seq r s).Matches before (c :: text) rest ↔
      (∃ u v, text = u ++ v ∧ r.Matches before (c :: u) (v ++ rest) ∧
        s.Matches (before ++ c :: u) v rest) ∨
      (r.Matches before [] (c :: (text ++ rest)) ∧ s.Matches before (c :: text) rest) := by
  constructor
  · rintro ⟨u, v, hw, hr, hs⟩
    cases u with
    | nil =>
        obtain rfl : c :: text = v := by simpa using hw
        exact .inr ⟨by simpa using hr, by simpa using hs⟩
    | cons d u =>
        obtain ⟨rfl, rfl⟩ : c = d ∧ text = u ++ v := by simpa using hw
        exact .inl ⟨u, v, rfl, hr, hs⟩
  · rintro (⟨u, v, rfl, hr, hs⟩ | ⟨hr, hs⟩)
    · exact ⟨c :: u, v, rfl, hr, hs⟩
    · exact ⟨[], c :: text, rfl, hr, by simpa using hs⟩

/-- What is left after a character matches what may follow the character. -/
theorem after_iff :
    (after c r before.isEmpty).Matches (before ++ [c]) text rest ↔
      r.Matches before (c :: text) rest := by
  induction r generalizing text rest with
  | nothing => simp [after, Matches]
  | empty => simp [after, Matches]
  | one set =>
      have hone : (one set).Matches before (c :: text) rest ↔
          set.contains c = true ∧ text = [] := by
        rw [Matches]
        constructor
        · rintro ⟨d, hd, hset⟩
          obtain ⟨rfl, rfl⟩ : c = d ∧ text = [] := by simpa using hd
          exact ⟨hset, rfl⟩
        · rintro ⟨hset, rfl⟩
          exact ⟨c, rfl, hset⟩
      rw [after, hone]
      split
      next h => simp [Matches, h]
      next h => simp [Matches, h]
  | start => simp [after, Matches]
  | stop => simp [after, Matches]
  | seq r s ihr ihs =>
      -- The second part gets the character only if the first one matches nothing in front of
      -- it.
      have hlater : (if r.acceptsEmpty before.isEmpty false = true then after c s before.isEmpty
            else nothing).Matches (before ++ [c]) text rest ↔
          r.Matches before [] (c :: (text ++ rest)) ∧ s.Matches before (c :: text) rest := by
        have hempty : r.acceptsEmpty before.isEmpty false = true ↔
            r.Matches before [] (c :: (text ++ rest)) :=
          acceptsEmpty_iff r before (c :: (text ++ rest))
        split
        next h => simp [ihs, hempty.mp h]
        next h => simp [Matches, mt hempty.mpr h]
      rw [after, matches_orElse_iff, matches_seq_cons_iff]
      simp only [Matches, matches_andThen_iff, hlater, ihr, List.append_assoc,
        List.singleton_append]
  | either r s ihr ihs => rw [after, matches_orElse_iff]; simp [Matches, ihr, ihs]
  | many r ih =>
      rw [after, matches_andThen_iff]
      simp [Matches, ih, repeats_cons_iff]

/-- The matcher decides whether all of a text matches, whatever is in front
of it. -/
theorem matchesRest_iff (r : Regex) (before text : List Char) :
    r.matchesRest before.isEmpty text = true ↔ r.Matches before text [] := by
  induction text generalizing r before with
  | nil =>
      rw [matchesRest]
      exact acceptsEmpty_iff r before []
  | cons c text ih =>
      have h : (before ++ [c]).isEmpty = false := by simp
      rw [matchesRest, ← after_iff, ← ih, h]

/-- Any character, repeated, matches every text. -/
theorem matches_many_all : (many (one .all)).Matches before text rest := by
  induction text generalizing before with
  | nil => exact .done
  | cons c text ih =>
      have hpiece : (one .all).Matches before [c] (text ++ rest) := ⟨c, rfl, rfl⟩
      exact .more hpiece ih

/-- The matcher finds out whether an expression matches a piece of a text. -/
theorem isMatch_iff :
    r.isMatch text = true ↔
      ∃ before piece rest, text = before ++ (piece ++ rest) ∧ r.Matches before piece rest := by
  have h : r.isMatch text = true ↔
      (seq (many (one .all)) (seq r (many (one .all)))).Matches [] text [] :=
    matchesRest_iff _ [] text
  rw [h, Matches]
  constructor
  · rintro ⟨before, _, rfl, -, piece, rest, rfl, hpiece, -⟩
    exact ⟨before, piece, rest, rfl, by simpa using hpiece⟩
  · rintro ⟨before, piece, rest, rfl, hpiece⟩
    exact ⟨before, piece ++ rest, rfl, matches_many_all, piece, rest, rfl, by simpa using hpiece,
      matches_many_all⟩

/-! ### Expressions in a row -/

/-- Two rows of expressions, one behind the other, match as one row. -/
theorem matches_sequence_append_iff {rs ss : List Regex} :
    (sequence (rs ++ ss)).Matches before text rest ↔
      (seq (sequence rs) (sequence ss)).Matches before text rest := by
  induction rs generalizing before text with
  | nil => exact matches_empty_seq_iff.symm
  | cons r rs ih =>
      rw [List.cons_append, sequence, List.foldr_cons, matches_andThen_iff]
      simp only [Matches, sequence, List.foldr_cons, matches_andThen_iff] at ih ⊢
      constructor
      · rintro ⟨u, _, rfl, hr, hlater⟩
        obtain ⟨v, w, rfl, hrs, hss⟩ := ih.mp hlater
        exact ⟨u ++ v, w, by simp, ⟨u, v, rfl, by simpa using hr, hrs⟩, by simpa using hss⟩
      · rintro ⟨_, w, rfl, ⟨u, v, rfl, hr, hrs⟩, hss⟩
        exact ⟨u, v ++ w, by simp, by simpa using hr,
          ih.mpr ⟨v, w, rfl, hrs, by simpa using hss⟩⟩

end Matching

/-! ### Expressions without ends

An expression without ends matches the same texts wherever they stand. -/

/-- Whether an expression matches the texts that `P` accepts, wherever they
stand. -/
def Spells (r : Regex) (P : List Char → Prop) : Prop :=
  ∀ before text rest, r.Matches before text rest ↔ P text

section Spells

variable {rs ss : List Regex} {r s : Regex} {P Q : List Char → Prop}

/-- What an expression spells can be said in other words. -/
theorem Spells.congr (hr : Spells r P) (h : ∀ text, P text ↔ Q text) : Spells r Q :=
  fun before text rest => (hr before text rest).trans (h text)

/-- The empty expression spells the empty text. -/
theorem spells_empty : Spells empty (· = []) :=
  fun _ _ _ => Iff.rfl

/-- The expression for a character spells the text of this one character. -/
theorem spells_single (c : Char) : Spells (one (.single c)) (· = [c]) := by
  simp +contextual [Spells, Matches, CharSet.contains, CharSet.single]

/-- Two expressions in a row spell the texts that can be cut in two fitting parts. -/
theorem Spells.seq (hr : Spells r P) (hs : Spells s Q) :
    Spells (seq r s) fun text => ∃ u v, text = u ++ v ∧ P u ∧ Q v := by
  intro before text rest
  simp only [Matches, hr _ _ _, hs _ _ _]

/-- A choice spells what either side spells. -/
theorem Spells.either (hr : Spells r P) (hs : Spells s Q) :
    Spells (either r s) fun text => P text ∨ Q text := by
  intro before text rest
  simp only [Matches, hr _ _ _, hs _ _ _]

/-- A text that matches a repetition is cut into pieces that match. -/
theorem Spells.many (hr : Spells r P) :
    Spells (many r) fun text => ∃ pieces : List (List Char),
      (∀ piece ∈ pieces, P piece) ∧ text = pieces.flatten := by
  intro before text rest
  constructor
  · intro h
    induction h with
    | done => exact ⟨[], by simp, rfl⟩
    | more hpiece _ ih =>
        obtain ⟨pieces, hpieces, rfl⟩ := ih
        exact ⟨_ :: pieces, by simpa using ⟨(hr _ _ _).mp hpiece, hpieces⟩, rfl⟩
  · rintro ⟨pieces, hpieces, rfl⟩
    induction pieces generalizing before with
    | nil => exact .done
    | cons piece pieces ih =>
        exact .more ((hr _ _ _).mpr (hpieces piece (by simp)))
          (ih _ fun p hp => hpieces p (by simp [hp]))

/-- A repeated set matches the texts of its characters. -/
theorem spells_many_one (set : CharSet) :
    Spells (.many (one set)) fun text => ∀ c ∈ text, set.contains c := by
  have hone : Spells (one set) fun text => ∃ c, text = [c] ∧ set.contains c :=
    fun _ _ _ => Iff.rfl
  refine hone.many.congr fun text => ?_
  constructor
  · rintro ⟨pieces, hpieces, rfl⟩ c hc
    obtain ⟨piece, hpiece, hc⟩ := List.mem_flatten.mp hc
    obtain ⟨d, rfl, hd⟩ := hpieces piece hpiece
    obtain rfl : c = d := by simpa using hc
    exact hd
  · intro h
    refine ⟨text.map fun c => [c], ?_, by simp [← List.flatMap_def]⟩
    intro piece hpiece
    obtain ⟨c, hc, rfl⟩ := List.mem_map.mp hpiece
    exact ⟨c, rfl, h c hc⟩

/-- A row of one expression spells what the expression does. -/
theorem spells_sequence_singleton : Spells (sequence [r]) P ↔ Spells r P := by
  have h : ∀ before text rest,
      (sequence [r]).Matches before text rest ↔ r.Matches before text rest := by
    intro before text rest
    cases r <;> simp [sequence, andThen, Matches]
  simp [Spells, h]

/-- Rows of expressions can be joined, and the texts are joined with them. -/
theorem Spells.append (hr : Spells (sequence rs) P) (hs : Spells (sequence ss) Q) :
    Spells (sequence (rs ++ ss)) fun text => ∃ u v, text = u ++ v ∧ P u ∧ Q v := by
  intro before text rest
  rw [matches_sequence_append_iff]
  exact hr.seq hs before text rest

/-- The characters of a text match this text only. -/
theorem spells_literal (cs : List Char) :
    Spells (sequence (cs.map fun c => one (.single c))) (· = cs) := by
  induction cs with
  | nil => exact spells_empty
  | cons c cs ih =>
      refine ((spells_sequence_singleton.mpr (spells_single c)).append ih).congr fun text => ?_
      simp

/-- Expressions that are joined match texts that are joined. -/
theorem spells_intercalate {α : Type} {f : α → List Regex} {R : α → List Char → Prop}
    {sep : List Char} (hs : Spells (sequence ss) (· = sep)) {levels : List α}
    (hf : ∀ a ∈ levels, Spells (sequence (f a)) (R a)) :
    Spells (sequence (ss.intercalate (levels.map f))) fun text =>
      ∃ texts, List.Forall₂ R levels texts ∧ text = sep.intercalate texts := by
  induction levels with
  | nil => simpa [sequence] using spells_empty
  | cons a levels ih =>
      have hfirst := hf a (by simp)
      have hlater := ih fun b hb => hf b (by simp [hb])
      -- A separator is written only between two levels, so the last one is a case of its own.
      cases levels with
      | nil =>
          refine (by simpa using hfirst : Spells _ (R a)).congr fun text => ?_
          simp [List.forall₂_cons_left_iff]
      | cons b levels =>
          rw [List.map_cons, List.map_cons, List.intercalate_cons_cons, ← List.map_cons]
          refine ((hfirst.append hs).append hlater).congr fun text => ?_
          constructor
          · rintro ⟨_, _, rfl, ⟨first, _, rfl, hword, rfl⟩, texts, hwords, rfl⟩
            have hne : texts ≠ [] := List.ne_nil_of_length_eq_add_one hwords.length_eq.symm
            exact ⟨first :: texts, .cons hword hwords, (List.intercalate_cons_of_ne_nil hne).symm⟩
          · rintro ⟨_, hwords, rfl⟩
            obtain ⟨first, texts, hword, htail, rfl⟩ := List.forall₂_cons_left_iff.mp hwords
            have hne : texts ≠ [] := List.ne_nil_of_length_eq_add_one htail.length_eq.symm
            exact ⟨first ++ sep, _, List.intercalate_cons_of_ne_nil hne,
              ⟨first, sep, rfl, hword, rfl⟩, texts, htail, rfl⟩

/-- Between the start of the text and its end, all of the text is matched. -/
theorem isMatch_anchored_iff {text : List Char} (hr : Spells (sequence rs) P) :
    (sequence (start :: (rs ++ [stop]))).isMatch text = true ↔ P text := by
  have hends : ∀ before piece rest,
      (sequence (start :: (rs ++ [stop]))).Matches before piece rest ↔
        before = [] ∧ rest = [] ∧ P piece := by
    intro before piece rest
    rw [sequence, List.foldr_cons, matches_andThen_iff, ← sequence, Matches]
    simp only [matches_sequence_append_iff]
    constructor
    · rintro ⟨u, v, rfl, ⟨rfl, rfl⟩, w, x, rfl, hw, rfl, rfl⟩
      exact ⟨rfl, rfl, by simpa using (hr _ _ _).mp hw⟩
    · rintro ⟨rfl, rfl, h⟩
      exact ⟨[], piece, rfl, ⟨rfl, rfl⟩, piece, [], by simp, (hr _ _ _).mpr h, rfl, rfl⟩
  simp [isMatch_iff, hends]

end Spells

/-! ### Reading -/

/-- Whether a text adds its parts to a draft, whatever was read before. -/
def Reads (text : List Char) (rs : List Regex) : Prop :=
  ∀ choices parts outer,
    text.foldlM Draft.read ⟨.plain, ⟨choices, parts⟩, outer⟩
      = some ⟨.plain, ⟨choices, rs.reverse ++ parts⟩, outer⟩

section Reads

variable {text further : List Char} {rs ss : List Regex}

/-- The empty text adds nothing. -/
theorem reads_nil : Reads [] [] :=
  fun _ _ _ => rfl

/-- Texts in a row add their parts in a row. -/
theorem Reads.append (hr : Reads text rs) (hs : Reads further ss) :
    Reads (text ++ further) (rs ++ ss) := by
  intro choices parts outer
  rw [List.foldlM_append, hr, Option.bind_eq_bind, Option.bind_some, hs]
  simp

/-- Reading an escaped text gives its characters. -/
theorem reads_escape (cs : List Char) : Reads (escape cs) (cs.map fun c => one (.single c)) := by
  induction cs with
  | nil => exact reads_nil
  | cons c cs ih =>
      have hone : Reads (if special.contains c then ['\\', c] else [c]) [one (.single c)] := by
        intro choices parts outer
        split
        next h => simpa [Draft.read, Draft.readPlain, Draft.push] using h
        next h =>
          simp only [special, List.contains_cons, List.contains_nil, Bool.or_eq_true, beq_iff_eq,
            not_or] at h
          simp [Draft.read, Draft.readPlain, Draft.push, h]
      exact hone.append ih

/-- Joined texts add the parts of each, with those of the separator in between. -/
theorem Reads.intercalate {α : Type} {f : α → List Char} {g : α → List Regex} {sep : List Char}
    (hs : Reads sep ss) {levels : List α} (hf : ∀ a ∈ levels, Reads (f a) (g a)) :
    Reads (sep.intercalate (levels.map f)) (ss.intercalate (levels.map g)) := by
  induction levels with
  | nil => exact reads_nil
  | cons a levels ih =>
      have hfirst := hf a (by simp)
      have hlater := ih fun b hb => hf b (by simp [hb])
      cases levels with
      | nil => simpa using hfirst
      | cons b levels =>
          simp only [List.map_cons, List.intercalate_cons_cons] at hlater ⊢
          exact (hfirst.append hs).append hlater

/-- A text that adds its parts to any draft is read whole, as these parts in a row. -/
theorem ofText?_of_reads (h : Reads text rs) : ofText? text = some (sequence rs) := by
  rw [ofText?, Draft.new, Group.new, h]
  simp [Draft.regex?, Group.regex, Group.choice]

end Reads

end Mqtt.Regex
