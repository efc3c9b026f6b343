import Mqtt.Proofs.Topic.Regex
import Mqtt.Proofs.Wire.Fault
import Mqtt.Topic.Filter

/-!
# `Mqtt.Proofs.Topic.Filter`: filters are checked and matched level by level

The program checks filters with one regular expression and matches topics
with another one, made of the filter. Both are compared with what they are
for, the levels of the text.

* `filters_exact`: exactly the texts of the grammar are filters, and only
  those are read. Topic names are among them.
* `accepts_levelwise`: a filter matches a topic if its levels stand for the
  first levels of the topic, and the rest of the topic is allowed.
* `splitOn_eq_iff`: levels are the pieces without slashes that the text is
  joined of. This is how texts and levels are exchanged in both proofs.
* `matcher_eq`: what the expression of a filter reads as. It can always be
  read.
-/

set_option autoImplicit false

namespace Mqtt

open Regex

/-! ### Texts and their levels -/

namespace Topic

/-- A text is cut at every slash, so none is left in a level. -/
theorem not_mem_of_mem_splitOn {cs level : List Char} (h : level ∈ cs.splitOn '/') :
    '/' ∉ level := by
  induction cs generalizing level with
  | nil =>
      obtain rfl : level = [] := by simpa using h
      simp
  | cons c cs ih =>
      -- A slash starts a new level, any other character goes to the front of the first one.
      rw [List.splitOn_cons_eq_if_modifyHead] at h
      obtain ⟨first, levels, hlevels⟩ := List.exists_cons_of_ne_nil (List.splitOn_ne_nil '/' cs)
      rw [hlevels] at h ih
      split at h
      next hc =>
        cases List.mem_cons.mp h with
        | inl hnil => simp [hnil]
        | inr hmem => exact ih hmem
      next hc =>
        simp only [List.modifyHead_cons, List.mem_cons] at h
        cases h with
        | inl hfirst =>
            have hslash : '/' ∉ first := ih (by simp)
            simp only [beq_iff_eq] at hc
            simp [hfirst, hslash, Ne.symm hc]
        | inr hmem => exact ih (by simp [hmem])

/-- Joining two rows of pieces puts one more separator between the rows. -/
theorem intercalate_append {sep : List Char} {first further : List (List Char)}
    (hfirst : first ≠ []) (hfurther : further ≠ []) :
    sep.intercalate (first ++ further)
      = sep.intercalate first ++ (sep ++ sep.intercalate further) := by
  induction first with
  | nil => exact absurd rfl hfirst
  | cons level levels ih =>
      cases levels with
      | nil => simp [List.intercalate_cons_of_ne_nil hfurther]
      | cons next levels =>
          rw [List.cons_append, List.intercalate_cons_of_ne_nil (by simp), ih (by simp),
            List.intercalate_cons_cons]
          simp

/-- The levels of a text are pieces without slashes, of which it is joined. -/
theorem splitOn_eq_iff {cs : List Char} {levels : List (List Char)} :
    cs.splitOn '/' = levels ↔
      levels ≠ [] ∧ (∀ level ∈ levels, '/' ∉ level) ∧ cs = ['/'].intercalate levels := by
  constructor
  · rintro rfl
    exact ⟨List.splitOn_ne_nil _ _, fun level => not_mem_of_mem_splitOn,
      (List.intercalate_splitOn '/').symm⟩
  · rintro ⟨hne, hslash, rfl⟩
    exact List.splitOn_intercalate '/' hslash hne

/-- A text starts as its first level does. -/
theorem head?_eq_some_iff {cs first : List Char} {levels : List (List Char)} {c : Char}
    (hsplit : cs.splitOn '/' = first :: levels) (hc : c ≠ '/') :
    cs.head? = some c ↔ first.head? = some c := by
  obtain ⟨-, -, rfl⟩ := splitOn_eq_iff.mp hsplit
  cases levels with
  | nil => simp
  | cons level levels =>
      rw [List.intercalate_cons_cons]
      cases first with
      | nil => simp [Ne.symm hc]
      | cons d first => simp

/-- Other characters than the slash stand in the levels. -/
theorem mem_intercalate_iff {c : Char} (hc : c ≠ '/') {levels : List (List Char)} :
    c ∈ ['/'].intercalate levels ↔ ∃ level ∈ levels, c ∈ level := by
  induction levels with
  | nil => simp
  | cons level levels ih =>
      cases levels with
      | nil => simp
      | cons next levels =>
          rw [List.intercalate_cons_cons]
          simp only [List.mem_append, ih, List.mem_singleton, hc, List.exists_mem_cons_iff]
          tauto

/-- A text is free of another character than the slash if its levels are. -/
theorem not_mem_splitOn_iff {c : Char} (hc : c ≠ '/') {cs : List Char} :
    (∀ level ∈ cs.splitOn '/', c ∉ level) ↔ c ∉ cs := by
  have h : c ∈ cs ↔ ∃ level ∈ cs.splitOn '/', c ∈ level := by
    rw [← mem_intercalate_iff hc, List.intercalate_splitOn]
  simp [h]

/-! ### The grammar of filters -/

/-- Whether a level may stand anywhere in a filter. -/
def IsFilterLevel (level : List Char) : Prop :=
  level = ['+'] ∨ ('+' ∉ level ∧ '#' ∉ level)

/-- Whether levels make a filter: each may stand anywhere, but the last one
may also be `#`. -/
def AreFilterLevels (levels : List (List Char)) : Prop :=
  ∀ before level further, levels = before ++ level :: further →
    IsFilterLevel level ∨ (level = ['#'] ∧ further = [])

/-- The last level of a filter is told from the others: only it may be `#`. -/
theorem areFilterLevels_concat_iff {levels : List (List Char)} {last : List Char} :
    AreFilterLevels (levels ++ [last]) ↔
      (∀ level ∈ levels, IsFilterLevel level) ∧ (IsFilterLevel last ∨ last = ['#']) := by
  constructor
  · intro h
    constructor
    · intro level hmem
      obtain ⟨before, further, rfl⟩ := List.append_of_mem hmem
      simpa using h before level (further ++ [last]) (by simp)
    · simpa using h levels last [] rfl
  · rintro ⟨hlevels, hlast⟩ before level further heq
    cases List.eq_nil_or_concat further with
    | inl hnil =>
        obtain ⟨rfl, rfl⟩ : levels = before ∧ last = level := by simpa [hnil] using heq
        simpa [hnil] using hlast
    | inr hconcat =>
        obtain ⟨further, last', rfl⟩ := hconcat
        have heq' : levels ++ [last] = (before ++ level :: further) ++ [last'] := by simp [heq]
        exact .inl (hlevels level (by simp [List.append_inj_left' heq' rfl]))

/-- Joining puts a separator behind every piece but the last. This is the shape that the
validator has. -/
theorem intercalate_concat {sep last : List Char} {levels : List (List Char)} :
    sep.intercalate (levels ++ [last]) = (levels.map (· ++ sep)).flatten ++ last := by
  induction levels with
  | nil => simp
  | cons level levels ih =>
      rw [List.cons_append, List.intercalate_cons_of_ne_nil (by simp), ih]
      simp

/-- The expression for a level without wildcards matches all such levels. -/
theorem spells_plainLevel :
    Spells plainLevel fun text => '/' ∉ text ∧ '+' ∉ text ∧ '#' ∉ text := by
  refine (spells_many_one _).congr fun text => ?_
  simp [CharSet.contains]
  grind

/-- The expression for a level that others follow takes the slash behind it along. -/
theorem spells_innerLevel :
    Spells innerLevel fun text =>
      ∃ level, text = level ++ ['/'] ∧ '/' ∉ level ∧ IsFilterLevel level := by
  refine ((spells_plainLevel.either (spells_single '+')).seq (spells_single '/')).congr
    fun text => ?_
  simp only [IsFilterLevel]
  grind

/-- The last level has no slash behind it, may be empty, and may be `#`. -/
theorem spells_lastLevel :
    Spells lastLevel fun text => '/' ∉ text ∧ (IsFilterLevel text ∨ text = ['#']) := by
  refine ((spells_plainLevel.either ((spells_single '#').either (spells_single '+'))).either
    spells_empty).congr fun text => ?_
  simp only [IsFilterLevel]
  grind

/-- Pieces with a slash each are made of levels. -/
theorem exists_levels_of_pieces {P : List Char → Prop} {pieces : List (List Char)}
    (h : ∀ piece ∈ pieces, ∃ level, piece = level ++ ['/'] ∧ P level) :
    ∃ levels : List (List Char), pieces = levels.map (· ++ ['/']) ∧ ∀ level ∈ levels, P level := by
  induction pieces with
  | nil => exact ⟨[], rfl, by simp⟩
  | cons piece pieces ih =>
      obtain ⟨level, rfl, hlevel⟩ := h piece (by simp)
      obtain ⟨levels, rfl, hlevels⟩ := ih fun p hp => h p (by simp [hp])
      exact ⟨level :: levels, rfl, by simpa using ⟨hlevel, hlevels⟩⟩

/-- The validator matches a row of levels, each with a slash, and a last
level without one. -/
theorem validator_isMatch_iff {cs : List Char} :
    validator.isMatch cs = true ↔ AreFilterLevels (cs.splitOn '/') := by
  have hparts : validator = sequence (start :: ([.many innerLevel] ++ [lastLevel] ++ [stop])) :=
    rfl
  have hspells := (spells_sequence_singleton.mpr spells_innerLevel.many).append
    (spells_sequence_singleton.mpr spells_lastLevel)
  rw [hparts, isMatch_anchored_iff hspells]
  constructor
  · rintro ⟨_, last, rfl, ⟨pieces, hpieces, rfl⟩, hslash, hlast⟩
    obtain ⟨levels, rfl, hlevels⟩ := exists_levels_of_pieces hpieces
    -- The pieces of a match are the levels: each ends at a slash and has no other.
    have hsplit : ((levels.map (· ++ ['/'])).flatten ++ last).splitOn '/' = levels ++ [last] := by
      refine splitOn_eq_iff.mpr ⟨by simp, ?_, intercalate_concat.symm⟩
      simpa [or_imp, forall_and] using ⟨fun level hmem => (hlevels level hmem).1, hslash⟩
    rw [hsplit, areFilterLevels_concat_iff]
    exact ⟨fun level hmem => (hlevels level hmem).2, hlast⟩
  · intro h
    obtain ⟨hne, hslash, hcs⟩ := splitOn_eq_iff.mp (rfl : cs.splitOn '/' = cs.splitOn '/')
    obtain ⟨levels, last, hlevels⟩ := (List.eq_nil_or_concat _).resolve_left hne
    rw [List.concat_eq_append] at hlevels
    rw [hlevels] at h hslash hcs
    rw [intercalate_concat] at hcs
    obtain ⟨hinner, hlast⟩ := areFilterLevels_concat_iff.mp h
    refine ⟨_, last, hcs, ⟨_, ?_, rfl⟩, hslash last (by simp), hlast⟩
    intro piece hpiece
    obtain ⟨level, hmem, rfl⟩ := List.mem_map.mp hpiece
    exact ⟨level, rfl, hslash level (by simp [hmem]), hinner level hmem⟩

/-- What can be sent as a topic is not empty, at most 65535 bytes long, and free of
U+0000. -/
theorem isSendable_iff {s : String} :
    isSendable s = true ↔
      1 ≤ s.utf8ByteSize ∧ s.utf8ByteSize ≤ 65535 ∧ '\x00' ∉ s.toList := by
  have hempty : s.isEmpty = false ↔ 1 ≤ s.utf8ByteSize := by
    rw [← Bool.not_eq_true, String.isEmpty_iff_utf8ByteSize_eq_zero]
    omega
  have hnul : s.toList.contains '\x00' = false ↔ '\x00' ∉ s.toList := by simp
  have hsize : decide (s.utf8ByteSize ≤ maxTextLength) = true ↔ s.utf8ByteSize ≤ 65535 :=
    decide_eq_true_iff
  simp only [isSendable, Bool.and_eq_true, Bool.not_eq_true', hempty, hnul, hsize, and_assoc]

/-- What can be sent as a topic can be written. -/
theorem fault?_of_isSendable {s : String} (h : isSendable s = true) :
    (SizedField.text s).fault? = none :=
  SizedField.fault?_text_eq_none_iff.mpr (isSendable_iff.mp h).2

/-- Whether a text keeps to the grammar of filters. -/
def KeepsGrammar (s : String) : Prop :=
  (1 ≤ s.utf8ByteSize ∧ s.utf8ByteSize ≤ 65535) ∧ '\x00' ∉ s.toList ∧ AreFilterLevels (levels s)

/-- The validator and the checks on its length accept the texts of the grammar. -/
theorem isFilter_iff {s : String} : isFilter s = true ↔ KeepsGrammar s := by
  rw [isFilter, Bool.and_eq_true, isSendable_iff, validator_isMatch_iff, KeepsGrammar, levels]
  simp only [and_assoc]

/-- A text without wildcards keeps to the grammar. -/
theorem isFilter_of_isName {s : String} (h : isName s = true) : isFilter s = true := by
  obtain ⟨hsend, hplain⟩ := Bool.and_eq_true_iff.mp h
  have hmem : '+' ∉ s.toList ∧ '#' ∉ s.toList := by
    simp [hasWildcard] at hplain
    grind
  rw [isFilter, hsend, Bool.true_and, validator_isMatch_iff]
  intro before level further heq
  have hlevel : ∀ c, c ≠ '/' → c ∈ level → c ∈ s.toList := by
    intro c hc hmem
    rw [← show ['/'].intercalate (s.toList.splitOn '/') = s.toList from
      List.intercalate_splitOn '/', heq]
    exact (mem_intercalate_iff hc).mpr ⟨level, by simp, hmem⟩
  have hplus := mt (hlevel '+' (by decide)) hmem.1
  have hhash := mt (hlevel '#' (by decide)) hmem.2
  exact .inl (.inr ⟨hplus, hhash⟩)

end Topic

/-! ### The expression of a filter -/

namespace TopicFilter

open Topic

/-- The expression for a level of a filter. -/
def levelParts (level : List Char) : List Regex :=
  if level = ['+'] then [.many (.one ⟨['/'], true⟩)] else level.map fun c => .one (.single c)

/-- The expressions for the levels of a filter, without a final `#`. -/
def levelsParts (levels : List (List Char)) : List Regex :=
  [.one (.single '/')].intercalate (levels.map levelParts)

/-- The expression for any further levels. -/
def furtherPart : Regex :=
  .either (.seq (.one (.single '/')) (.many (.one .dot))) .empty

/-- The expressions between the ends of the text. -/
def parts (levels : List (List Char)) (trailing : Bool) : List Regex :=
  match trailing, levels with
  | true, [] => [.many (.one .dot)]
  | true, _ => levelsParts levels ++ [furtherPart]
  | false, _ => levelsParts levels

/-- The expression for a level is read as the parts for it, whatever characters the
level has: those that mean something in an expression are escaped. -/
theorem reads_levelPattern (level : List Char) : Reads (levelPattern level) (levelParts level) := by
  rw [levelPattern, levelParts]
  split
  next => exact fun _ _ _ => rfl
  next => exact reads_escape level

/-- So are the expressions for levels in a row, with the slashes between them. -/
theorem reads_levelsPattern (levels : List (List Char)) :
    Reads (levelsPattern levels) (levelsParts levels) :=
  Reads.intercalate (fun _ _ _ => rfl) fun level _ => reads_levelPattern level

/-- What the expression of a filter reads as. -/
theorem matcher_eq (levels : List (List Char)) (trailing : Bool) :
    ofText? (pattern levels trailing)
      = some (sequence (start :: (parts levels trailing ++ [stop]))) := by
  have hstart : Reads ['^'] [start] := fun _ _ _ => rfl
  have hstop : Reads ['$'] [stop] := fun _ _ _ => rfl
  have hfurther : Reads anyFurther [furtherPart] := fun _ _ _ => rfl
  have hlevels := reads_levelsPattern levels
  refine ofText?_of_reads ?_
  cases trailing with
  | false => exact (hstart.append hlevels).append hstop
  | true =>
      cases levels with
      | nil => exact fun _ _ _ => rfl
      | cons level levels => exact hstart.append ((hlevels.append hfurther).append hstop)

/-! ### Reading filters -/

/-- The expression of a filter can always be read. -/
theorem ofString_eq (s : String) :
    ofString s =
      if s = "" then .error .empty
      else if isFilter s then
        if maxWildcards < (leading (levels s)).count ['+'] then .error (.tooManyWildcards s)
        else
          .ok ⟨s,
            sequence (start :: (parts (leading (levels s)) (isTrailing (levels s)) ++ [stop]))⟩
      else .error (.invalid s) := by
  simp only [ofString, matcher_eq, String.isEmpty_iff]
  cases isFilter s <;> rfl

/-- Exactly the texts that keep to the grammar are filters, and topic names
are among them. The empty text is refused in its own way. -/
theorem filters_exact (s : String) :
    (isFilter s = true ↔ KeepsGrammar s) ∧
      (ofString s = .error .empty ↔ s = "") ∧
      (∀ t, ofString s = .error (.invalid t) ↔ t = s ∧ s ≠ "" ∧ ¬ KeepsGrammar s) ∧
      (isName s = true → isFilter s = true) := by
  refine ⟨isFilter_iff, ?_, ?_, isFilter_of_isName⟩
  · rw [ofString_eq]
    split
    next h => simp [h]
    next h => split <;> [split; skip] <;> simp [h]
  · intro t
    rw [ofString_eq, ← isFilter_iff]
    split
    next h => simp [h]
    next h =>
      split
      next hfilter => split <;> simp [hfilter]
      next hfilter => simp [h, hfilter, eq_comm]

/-- A name with a wildcard is none, a name without one is a filter, and a `+` that
shares its level is refused. -/
theorem filters_exact_sportTopic :
    isName "sport/+" = false ∧ isFilter "sport/tennis" = true ∧
      ofString "sport+" = .error (.invalid "sport+") := by
  obtain ⟨-, -, -, hname⟩ := filters_exact "sport/tennis"
  obtain ⟨hfilter, -, hinvalid, -⟩ := filters_exact "sport+"
  exact ⟨by decide, hname (by decide),
    (hinvalid _).mpr ⟨rfl, by decide, mt hfilter.mpr (by decide)⟩⟩

/-! ### Matching topics -/

/-- Whether a level of a filter stands for a level of a topic. -/
def Covers (level text : List Char) : Prop :=
  level = ['+'] ∨ text = level

instance (level text : List Char) : Decidable (Covers level text) :=
  inferInstanceAs (Decidable (_ ∨ _))

/-- The parts for a level match the levels of topics that it stands for. -/
theorem spells_levelParts {level : List Char} (hslash : '/' ∉ level) :
    Spells (sequence (levelParts level)) fun text => '/' ∉ text ∧ Covers level text := by
  rw [levelParts]
  split
  next h =>
    refine (spells_sequence_singleton.mpr (spells_many_one _)).congr fun text => ?_
    simp [CharSet.contains, Covers, h]
    grind
  next h =>
    refine (spells_literal level).congr fun text => ?_
    simp only [Covers, h]
    grind

/-- A dot that is repeated stops at line feeds. -/
theorem spells_many_dot : Spells (.many (.one .dot)) fun text => '\n' ∉ text := by
  refine (spells_many_one .dot).congr fun text => ?_
  simp [CharSet.contains, CharSet.dot]
  grind

/-- What `#` is replaced by matches nothing at all, or a slash and a text without line
feeds. -/
theorem spells_furtherPart :
    Spells furtherPart fun text =>
      text = [] ∨ ∃ further, text = '/' :: further ∧ '\n' ∉ further := by
  refine (((spells_single '/').seq spells_many_dot).either spells_empty).congr fun text => ?_
  grind

/-- What a filter allows behind the levels that its own levels stand for. -/
def AllowsFurther (trailing : Bool) (further : List (List Char)) : Prop :=
  if trailing then ∀ level ∈ further, '\n' ∉ level else further = []

instance (trailing : Bool) (further : List (List Char)) :
    Decidable (AllowsFurther trailing further) :=
  inferInstanceAs (Decidable (if trailing then ∀ level ∈ further, '\n' ∉ level else further = []))

/-- The parts for levels in a row match as many levels, each stood for by its own. -/
theorem spells_levelsParts {levels : List (List Char)} (hslash : ∀ level ∈ levels, '/' ∉ level) :
    Spells (sequence (levelsParts levels)) fun text =>
      ∃ texts, (∀ text ∈ texts, '/' ∉ text) ∧ List.Forall₂ Covers levels texts ∧
        text = ['/'].intercalate texts := by
  refine (spells_intercalate (spells_sequence_singleton.mpr (spells_single '/'))
    fun level hmem => spells_levelParts (hslash level hmem)).congr fun text => ?_
  have hboth : ∀ texts,
      List.Forall₂ (fun level text => '/' ∉ text ∧ Covers level text) levels texts ↔
        (∀ text ∈ texts, '/' ∉ text) ∧ List.Forall₂ Covers levels texts := by
    intro texts
    clear hslash
    induction levels generalizing texts with
    | nil => simp +contextual
    | cons level levels ih =>
        cases texts with
        | nil => simp
        | cons text texts =>
            simp only [List.forall₂_cons, ih, List.forall_mem_cons]
            tauto
  simp only [hboth, and_assoc]

/-- Levels that are followed by nothing. -/
theorem isMatch_levels_iff {levels : List (List Char)} {topic : List Char}
    (hslash : ∀ level ∈ levels, '/' ∉ level) (hne : levels ≠ []) :
    (sequence (start :: (levelsParts levels ++ [stop]))).isMatch topic = true ↔
      List.Forall₂ Covers levels (topic.splitOn '/') := by
  rw [isMatch_anchored_iff (spells_levelsParts hslash)]
  constructor
  · rintro ⟨texts, htexts, hcovers, rfl⟩
    have htexts_ne : texts ≠ [] := by
      rintro rfl
      exact hne (List.forall₂_nil_right_iff.mp hcovers)
    rwa [List.splitOn_intercalate '/' htexts htexts_ne]
  · intro hcovers
    exact ⟨_, fun text => not_mem_of_mem_splitOn, hcovers, (List.intercalate_splitOn '/').symm⟩

/-- No levels, and anything behind them. -/
theorem isMatch_any_iff {topic : List Char} :
    (sequence (start :: ([.many (.one .dot)] ++ [stop]))).isMatch topic = true ↔
      ∀ level ∈ topic.splitOn '/', '\n' ∉ level := by
  rw [isMatch_anchored_iff (spells_sequence_singleton.mpr spells_many_dot)]
  exact (not_mem_splitOn_iff (by decide)).symm

/-- Levels that are followed by any further ones. -/
theorem isMatch_further_iff {levels : List (List Char)} {topic : List Char}
    (hslash : ∀ level ∈ levels, '/' ∉ level) (hne : levels ≠ []) :
    (sequence (start :: (levelsParts levels ++ [furtherPart] ++ [stop]))).isMatch topic = true ↔
      ∃ first further, topic.splitOn '/' = first ++ further ∧
        List.Forall₂ Covers levels first ∧ ∀ level ∈ further, '\n' ∉ level := by
  rw [isMatch_anchored_iff
    ((spells_levelsParts hslash).append (spells_sequence_singleton.mpr spells_furtherPart))]
  constructor
  · rintro ⟨_, w, rfl, ⟨texts, htexts, hcovers, rfl⟩, hw⟩
    have htexts_ne : texts ≠ [] := by
      rintro rfl
      exact hne (List.forall₂_nil_right_iff.mp hcovers)
    -- ⟨x, rfl, hx⟩ | Behind the levels there is nothing, or a slash and any text without a line
    -- feed.
    rcases hw with rfl | ⟨x, rfl, hx⟩
    · refine ⟨texts, [], ?_, hcovers, by simp⟩
      rw [List.append_nil, List.append_nil, List.splitOn_intercalate '/' htexts htexts_ne]
    · refine ⟨texts, x.splitOn '/', ?_, hcovers, (not_mem_splitOn_iff (by decide)).mpr hx⟩
      refine splitOn_eq_iff.mpr ⟨by simp [htexts_ne], ?_, ?_⟩
      · intro text hmem
        cases List.mem_append.mp hmem with
        | inl hfirst => exact htexts text hfirst
        | inr hfurther => exact not_mem_of_mem_splitOn hfurther
      · rw [intercalate_append htexts_ne (List.splitOn_ne_nil _ _), List.intercalate_splitOn]
        rfl
  · rintro ⟨first, further, hsplit, hcovers, hfurther⟩
    obtain ⟨-, htexts, rfl⟩ := splitOn_eq_iff.mp hsplit
    have hfirst : ∀ text ∈ first, '/' ∉ text := fun text hmem => htexts text (by simp [hmem])
    have hfirst_ne : first ≠ [] := by
      rintro rfl
      exact hne (List.forall₂_nil_right_iff.mp hcovers)
    cases further with
    | nil => exact ⟨_, [], by simp, ⟨first, hfirst, hcovers, rfl⟩, .inl rfl⟩
    | cons level further =>
        have hnl : '\n' ∉ ['/'].intercalate (level :: further) := by
          rw [mem_intercalate_iff (by decide)]
          simpa using hfurther
        exact ⟨_, _, intercalate_append hfirst_ne (by simp), ⟨first, hfirst, hcovers, rfl⟩,
          .inr ⟨_, rfl, hnl⟩⟩

/-- The expression of a filter matches the topics whose first levels its own
levels stand for, if it allows what is behind them. -/
theorem isMatch_parts_iff {levels : List (List Char)} {trailing : Bool} {topic : String}
    (hslash : ∀ level ∈ levels, '/' ∉ level) (hne : trailing = false → levels ≠ []) :
    (sequence (start :: (parts levels trailing ++ [stop]))).isMatch topic.toList = true ↔
      ∃ first further, Topic.levels topic = first ++ further ∧
        List.Forall₂ Covers levels first ∧ AllowsFurther trailing further := by
  cases trailing with
  | false =>
      rw [parts, isMatch_levels_iff hslash (hne rfl)]
      simp [AllowsFurther, Topic.levels]
  | true =>
      cases levels with
      | nil =>
          rw [parts, isMatch_any_iff]
          simp [AllowsFurther, Topic.levels]
      | cons level levels =>
          have hparts : parts (level :: levels) true
              = levelsParts (level :: levels) ++ [furtherPart] :=
            rfl
          rw [hparts, isMatch_further_iff hslash (by simp)]
          simp [AllowsFurther, Topic.levels]

/-- A filter starts with a wildcard if its first level is one. -/
theorem startsWithWildcard_iff {f : TopicFilter} (h : AreFilterLevels (levels f.text)) :
    f.startsWithWildcard = true ↔
      (levels f.text).head? = some ['+'] ∨ (levels f.text).head? = some ['#'] := by
  obtain ⟨first, rest, hsplit⟩ := List.exists_cons_of_ne_nil (List.splitOn_ne_nil '/' f.text.toList)
  have hfirst := h [] first rest hsplit
  have hchar : f.startsWithWildcard = true ↔
      f.text.toList.head? = some '+' ∨ f.text.toList.head? = some '#' := by
    rw [startsWithWildcard]
    cases f.text.toList.head? <;> simp
  rw [hchar, head?_eq_some_iff hsplit (by decide), head?_eq_some_iff hsplit (by decide), levels,
    hsplit, List.head?_cons, Option.some.injEq, Option.some.injEq]
  rcases hfirst with (rfl | ⟨hplus, hhash⟩) | ⟨rfl, -⟩
  · simp
  · cases first with
    | nil => simp
    | cons c first =>
        simp only [List.mem_cons, not_or] at hplus hhash
        simp [Ne.symm hplus.1, Ne.symm hhash.1]
  · simp

/-- A filter that was read keeps to the grammar, and its matcher is made of the levels
of its text. -/
theorem isFilter_of_ofString {s : String} {f : TopicFilter} (h : ofString s = .ok f) :
    isFilter s = true ∧ s = f.text ∧
      f.matcher
        = sequence (start :: (parts (leading (levels s)) (isTrailing (levels s)) ++ [stop])) := by
  rw [ofString_eq] at h
  split at h
  next => simp at h
  next =>
    split at h
    next hfilter =>
      split at h
      next => simp at h
      next =>
        cases h
        exact ⟨hfilter, rfl, rfl⟩
    next => simp at h

/-- A filter matches a topic if its levels, without a final `#`, stand for
the first levels of the topic, and it allows the levels behind them. The
topics of the server itself are not for filters that start with a
wildcard. -/
theorem accepts_levelwise {s : String} {f : TopicFilter} (h : ofString s = .ok f)
    (topic : String) :
    f.accepts topic = true ↔
      ¬ (topic.toList.head? = some '$' ∧
          ((levels s).head? = some ['+'] ∨ (levels s).head? = some ['#'])) ∧
      ∃ first further, levels topic = first ++ further ∧
        List.Forall₂ Covers (leading (levels s)) first ∧
        AllowsFurther (isTrailing (levels s)) further := by
  obtain ⟨hfilter, rfl, hmatcher⟩ := isFilter_of_ofString h
  obtain ⟨-, -, hlevels⟩ := isFilter_iff.mp hfilter
  -- Leading levels are levels, and a cut at the slashes leaves none in them.
  have hslash : ∀ level ∈ leading (levels f.text), '/' ∉ level := by
    intro level hmem
    have hmem' : level ∈ levels f.text := by
      rw [leading] at hmem
      split at hmem
      next => exact List.dropLast_subset _ hmem
      next => exact hmem
    exact not_mem_of_mem_splitOn hmem'
  have hne : isTrailing (levels f.text) = false → leading (levels f.text) ≠ [] := by
    intro htrailing
    rw [leading, htrailing]
    exact List.splitOn_ne_nil _ _
  rw [accepts, hmatcher, ← startsWithWildcard_iff hlevels]
  split
  next hserver => simp [hserver]
  next hserver => rw [isMatch_parts_iff hslash hne, and_iff_right hserver]

/-- `+` stands for a level with a line feed in it, and `#` for any number of levels,
also for empty ones. -/
theorem accepts_levelwise_sportFilter :
    ∃ f, ofString "sport/+/#" = .ok f ∧ f.accepts "sport/ten\nis" = true ∧
      f.accepts "sport//player.1/" = true := by
  have h : ofString "sport/+/#" = .ok _ := rfl
  refine ⟨_, h, (accepts_levelwise h _).mpr ?_, (accepts_levelwise h _).mpr ?_⟩
  · exact ⟨by decide, ["sport".toList, "ten\nis".toList], [], by decide, by decide, by decide⟩
  · exact ⟨by decide, ["sport".toList, []], ["player.1".toList, []], by decide, by decide,
      by decide⟩

end TopicFilter

end Mqtt
