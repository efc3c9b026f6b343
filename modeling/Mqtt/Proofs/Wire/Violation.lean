import Mqtt.Proofs.Wire.Canonical
import Mqtt.Proofs.Wire.Text

/-!
# `Mqtt.Proofs.Wire.Violation`: what a frame that cannot be read is blamed on

The body of a packet is laid out as a row of fields (`PacketKind.layout`). Bytes
either fit a field or break it (`BodyField.Fits`, `BodyField.Breaks`), and a body
violates its layout where some fields fit and the next one is broken, or where all
of them fit and bytes are left (`Violates`).

* `Reader.Follows`: a reader that takes off what fits a field and reports what
  breaks it, as each reader of a field does.
* `Reader.Guards`: a reader of a whole body that reports its violations and nothing
  else, built field by field (`Reader.Follows.guards`).
* `Frame.decode_error_attribution`: the first byte is blamed before the body, the body for
  its first violation.
-/

set_option autoImplicit false

namespace Mqtt

/-! ### Layouts and their violations -/

/-- A field of a packet body. -/
inductive BodyField where
  /-- A byte that may be anything. -/
  | byte
  | word
  | text
  /-- The verdict of a CONNACK. -/
  | connectCode
  /-- The level that a SUBSCRIBE asks for. -/
  | level
  /-- The verdict of a SUBACK. -/
  | granted
  deriving DecidableEq, Repr

namespace BodyField

/-- The bytes that a field cannot do without. -/
def leastSize : BodyField → Nat
  | word | text => 2
  | _ => 1

/-- The bytes that may stand in a field. -/
inductive Fits : BodyField → List UInt8 → Prop where
  | byte (b : UInt8) : Fits .byte [b]
  | word (high low : UInt8) : Fits .word [high, low]
  | text {high low : UInt8} {s : String} (hlength : (Utf8.encode s).length = announced high low)
      (hnul : '\x00' ∉ s.toList) : Fits .text (high :: low :: Utf8.encode s)
  | connectCode {n : UInt8} (h : n ≤ 5) : Fits .connectCode [n]
  | level {n : UInt8} (h : n ≤ 2) : Fits .level [n]
  | granted {n : UInt8} (h : n ≤ 2 ∨ n = 0x80) : Fits .granted [n]

/-- What is wrong with a field of a packet at the front of some bytes. -/
inductive Breaks (kind : PacketKind) : BodyField → List UInt8 → WireError → Prop where
  | missing {f : BodyField} {bs : List UInt8} (h : bs.length < f.leastSize) :
      Breaks kind f bs (.malformedBody kind)
  /-- The bytes end inside a text. -/
  | cutText {high low : UInt8} {rest : List UInt8} (h : rest.length < announced high low) :
      Breaks kind .text (high :: low :: rest) (.malformedBody kind)
  | notUtf8 {high low : UInt8} {content rest : List UInt8} {fault : Utf8.Fault}
      (hlength : content.length = announced high low) (h : Utf8.decode content = .error fault) :
      Breaks kind .text (high :: low :: (content ++ rest)) (.stringNotUtf8 fault)
  | nul {high low : UInt8} {s : String} {rest : List UInt8}
      (hlength : (Utf8.encode s).length = announced high low) (h : '\x00' ∈ s.toList) :
      Breaks kind .text (high :: low :: (Utf8.encode s ++ rest)) (.invalidString s)
  | connectCode {n : UInt8} {rest : List UInt8} (h : 5 < n) :
      Breaks kind .connectCode (n :: rest) (.invalidConnectCode n)
  | level {n : UInt8} {rest : List UInt8} (h : 2 < n) :
      Breaks kind .level (n :: rest) (.invalidQoS n)
  | granted {n : UInt8} {rest : List UInt8} (h : 2 < n) (hrefused : n ≠ 0x80) :
      Breaks kind .granted (n :: rest) (.invalidSubAckCode n)

end BodyField

/-- The fields of a body. A PUBLISH has an identifier unless it is at level 0. -/
def PacketKind.layout (kind : PacketKind) (hasId : Bool) : List BodyField :=
  match kind with
  | .connAck => [.byte, .connectCode]
  | .publish => if hasId then [.text, .word] else [.text]
  | .pubAck | .pubRec | .pubRel | .pubComp | .unsubAck => [.word]
  | .subscribe => [.word, .text, .level]
  | .subAck => [.word, .granted]
  | .unsubscribe => [.word, .text]
  | .connect | .pingReq | .pingResp | .disconnect => []

/-- The first violation of a layout from left to right. What is left behind the last
field is the payload of a PUBLISH; other packets must end there. -/
inductive Violates (kind : PacketKind) : List BodyField → List UInt8 → WireError → Prop where
  | here {f : BodyField} {fs : List BodyField} {bs : List UInt8} {e : WireError}
      (h : f.Breaks kind bs e) : Violates kind (f :: fs) bs e
  | later {f : BodyField} {fs : List BodyField} {front bs : List UInt8} {e : WireError}
      (hfits : f.Fits front) (h : Violates kind fs bs e) : Violates kind (f :: fs) (front ++ bs) e
  | trailing {bs : List UInt8} (hkind : kind ≠ .publish) (h : bs ≠ []) :
      Violates kind [] bs (.malformedBody kind)

/-- Whether a packet of a kind may have some flags: a PUBLISH any, other packets those
of their kind. -/
def PacketKind.AllowsFlags (kind : PacketKind) (flags : UInt8) : Prop :=
  kind = .publish ∨ flags = if kind ∈ [.subscribe, .unsubscribe, .pubRel] then 2 else 0

instance (kind : PacketKind) (flags : UInt8) : Decidable (kind.AllowsFlags flags) :=
  inferInstanceAs (Decidable (_ ∨ _))

/-- What a frame is blamed for: that its first byte has no kind, or no level, or not
the flags of its kind; that it is a CONNECT; or the first violation in its body. -/
def Frame.Blamed (first : UInt8) (body : List UInt8) (e : WireError) : Prop :=
  if first >>> 4 = 0 ∨ first >>> 4 = 15 then e = .unknownPacketKind (first >>> 4)
  else if first &&& 6 = 6 then e = .invalidQoS 3
  else ∃ kind : PacketKind, first >>> 4 = kind.code ∧
    if ¬ kind.AllowsFlags (first &&& 15) then e = .invalidFlags kind (first &&& 15)
    else if kind = .connect then e = .unsupportedDecode .connect
    else Violates kind (kind.layout (first &&& 6 ≠ 0)) body e

/-- The errors that the body of a packet may be blamed for. -/
def PacketKind.MayReport (kind : PacketKind) : WireError → Prop
  | .malformedBody kind' => kind' = kind
  | .stringNotUtf8 _ | .invalidString _ => kind ∈ [.publish, .subscribe, .unsubscribe]
  | .invalidConnectCode _ => kind = .connAck
  | .invalidQoS _ => kind = .subscribe
  | .invalidSubAckCode _ => kind = .subAck
  | _ => False

/-- A body is blamed for a field of its layout, or for its length. -/
theorem Violates.error_cases {kind : PacketKind} {fs : List BodyField} {bs : List UInt8}
    {e : WireError} (h : Violates kind fs bs e) :
    e = .malformedBody kind ∨
      (.text ∈ fs ∧ ((∃ fault, e = .stringNotUtf8 fault) ∨ ∃ s, e = .invalidString s)) ∨
      (.connectCode ∈ fs ∧ ∃ n, e = .invalidConnectCode n) ∨
      (.level ∈ fs ∧ ∃ n, e = .invalidQoS n) ∨
      (.granted ∈ fs ∧ ∃ n, e = .invalidSubAckCode n) := by
  induction h with
  | here h => cases h <;> simp
  | later hfits h ih =>
      rcases ih with rfl | ⟨hmem, hcause⟩ | ⟨hmem, hcause⟩ | ⟨hmem, hcause⟩ | ⟨hmem, hcause⟩
      · exact Or.inl rfl
      · exact Or.inr (Or.inl ⟨List.mem_cons_of_mem _ hmem, hcause⟩)
      · exact Or.inr (Or.inr (Or.inl ⟨List.mem_cons_of_mem _ hmem, hcause⟩))
      · exact Or.inr (Or.inr (Or.inr (Or.inl ⟨List.mem_cons_of_mem _ hmem, hcause⟩)))
      · exact Or.inr (Or.inr (Or.inr (Or.inr ⟨List.mem_cons_of_mem _ hmem, hcause⟩)))
  | trailing => exact Or.inl rfl

/-- So a body is blamed only for what a packet of its kind has. -/
theorem Violates.mayReport {kind : PacketKind} {hasId : Bool} {bs : List UInt8} {e : WireError}
    (h : Violates kind (kind.layout hasId) bs e) : kind.MayReport e := by
  rcases h.error_cases with
    rfl | ⟨hmem, ⟨fault, rfl⟩ | ⟨s, rfl⟩⟩ | ⟨hmem, n, rfl⟩ | ⟨hmem, n, rfl⟩ | ⟨hmem, n, rfl⟩
  · exact rfl
  all_goals
    revert hmem
    cases kind <;> cases hasId <;> simp [PacketKind.layout, PacketKind.MayReport]

/-! ### Readers of one field -/

namespace Reader

variable {α β : Type} {kind : PacketKind}

/-- Whether a reader takes off what fits a field, and reports what breaks it. -/
structure Follows (kind : PacketKind) (f : BodyField) (r : Reader α) : Prop where
  takes : ∀ bs rest, (∃ a, r.run bs = .ok (a, rest)) ↔ ∃ front, f.Fits front ∧ bs = front ++ rest
  reports : ∀ bs e, r.run bs = .error e ↔ f.Breaks kind bs e

/-- A byte is missing or fits, whatever it is. -/
theorem follows_byte : Follows kind .byte (byte kind) where
  takes bs rest := by
    constructor
    · rintro ⟨b, h⟩
      exact ⟨[b], .byte b, eq_cons_of_byte h⟩
    · rintro ⟨_, ⟨⟩, rfl⟩
      exact ⟨_, rfl⟩
  reports bs e := by
    constructor
    · intro h
      cases bs with
      | nil =>
          obtain rfl := Except.error.inj h
          exact .missing (by decide)
      | cons b bs => cases h
    · intro h
      obtain ⟨hshort⟩ := h
      obtain rfl : bs = [] := List.length_eq_zero_iff.mp (Nat.lt_one_iff.mp hshort)
      rfl

/-- A word is missing a byte or fits, whatever its bytes are. -/
theorem follows_word : Follows kind .word (word kind) where
  takes bs rest := by
    constructor
    · rintro ⟨n, h⟩
      exact ⟨wordBytes n, .word _ _, eq_append_of_word h⟩
    · rintro ⟨_, ⟨⟩, rfl⟩
      exact ⟨_, rfl⟩
  reports bs e := by
    constructor
    · intro h
      rcases short_or_cons bs with hshort | ⟨high, low, rest, rfl⟩
      · obtain rfl := Except.error.inj ((run_word_short hshort).symm.trans h)
        exact .missing hshort
      · cases h
    · intro h
      cases h with
      | missing hshort => exact run_word_short hshort

/-- A text breaks in the four ways that are named, and is taken off up to its announced
end otherwise. -/
theorem follows_text : Follows kind .text (text kind) where
  takes bs rest := by
    constructor
    · rintro ⟨s, h⟩
      obtain ⟨⟨high, low, rfl, hlength⟩, hnul⟩ := run_text_eq_ok_iff.mp h
      exact ⟨high :: low :: Utf8.encode s, .text hlength hnul, rfl⟩
    · rintro ⟨_, ⟨⟩, rfl⟩
      next high low s hlength hnul =>
        exact ⟨s, run_text_eq_ok_iff.mpr ⟨⟨high, low, rfl, hlength⟩, hnul⟩⟩
  reports bs e := by
    rw [run_text_eq_error_iff]
    constructor
    · rintro (⟨hshort | ⟨high, low, later, rfl, hlt⟩, rfl⟩ |
        ⟨content, rest, fault, ⟨high, low, rfl, hlength⟩, hdecode, rfl⟩ |
        ⟨s, rest, ⟨high, low, rfl, hlength⟩, hnul, rfl⟩)
      · exact .missing hshort
      · exact .cutText hlt
      · exact .notUtf8 hlength hdecode
      · exact .nul hlength hnul
    · intro h
      cases h with
      | missing hshort => exact Or.inl ⟨Or.inl hshort, rfl⟩
      | cutText hlt => exact Or.inl ⟨Or.inr ⟨_, _, _, rfl, hlt⟩, rfl⟩
      | notUtf8 hlength hdecode =>
          exact Or.inr (Or.inl ⟨_, _, _, ⟨_, _, rfl, hlength⟩, hdecode, rfl⟩)
      | nul hlength hnul => exact Or.inr (Or.inr ⟨_, _, ⟨_, _, rfl, hlength⟩, hnul, rfl⟩)

/-- A byte that is checked when it was read follows a field that holds the bytes
which pass. -/
theorem follows_checked {f : BodyField} {check : UInt8 → Except WireError α}
    (valid : UInt8 → Prop) (fault : UInt8 → WireError) (hsize : f.leastSize = 1)
    (hcheck : ∀ n, (valid n ∧ ∃ a, check n = .ok a) ∨ (¬ valid n ∧ check n = .error (fault n)))
    (hfits : ∀ bs, f.Fits bs ↔ ∃ n, valid n ∧ bs = [n])
    (hbreaks : ∀ n bs e, f.Breaks kind (n :: bs) e ↔ ¬ valid n ∧ e = fault n) :
    Follows kind f (byte kind >>= fun n => liftM (check n)) where
  takes bs rest := by
    constructor
    · rintro ⟨a, h⟩
      obtain ⟨n, later, hbyte, hlift⟩ := run_bind_eq_ok h
      obtain ⟨hok, rfl⟩ := run_lift_eq_ok hlift
      rcases hcheck n with ⟨hvalid, -⟩ | ⟨-, herror⟩
      · exact ⟨[n], (hfits _).mpr ⟨n, hvalid, rfl⟩, eq_cons_of_byte hbyte⟩
      · cases hok.symm.trans herror
    · rintro ⟨front, hfront, rfl⟩
      obtain ⟨n, hvalid, rfl⟩ := (hfits front).mp hfront
      rcases hcheck n with ⟨-, a, hok⟩ | ⟨hinvalid, -⟩
      · exact ⟨a, (reads_byte kind n).bind (reads_lift hok) rest⟩
      · exact absurd hvalid hinvalid
  reports bs e := by
    cases bs with
    | nil =>
        constructor
        · intro h
          obtain rfl := Except.error.inj h
          exact .missing (by rw [hsize]; exact Nat.one_pos)
        · intro h
          cases h with
          | missing => rfl
    | cons n bs =>
        rw [hbreaks n bs e]
        show (check n >>= fun a => pure (a, bs)) = .error e ↔ _
        -- The byte is there, so only the check can fail, and it sees nothing behind the byte.
        rcases hcheck n with ⟨hvalid, a, hok⟩ | ⟨hinvalid, herror⟩
        · rw [hok]
          exact ⟨fun h => Except.noConfusion rfl rfl (heq_of_eq h), fun h => absurd hvalid h.1⟩
        · rw [herror]
          exact ⟨fun h => ⟨hinvalid, (Except.error.inj h).symm⟩, fun h => by rw [h.2]; rfl⟩

/-- The verdicts of a CONNACK are numbered from 0 to 5. -/
theorem readConnectCode_cases (n : UInt8) :
    (n ≤ 5 ∧ ∃ code, readConnectCode n = .ok code) ∨
      (¬ n ≤ 5 ∧ readConnectCode n = .error (.invalidConnectCode n)) := by
  have hcode : ∀ n : Fin 256,
      ConnectCode.ofCode? (UInt8.ofFin n) = none ↔ ¬ UInt8.ofFin n ≤ 5 := by
    decide +kernel
  have hn : ConnectCode.ofCode? n = none ↔ ¬ n ≤ 5 := hcode n.toFin
  unfold readConnectCode
  cases h : ConnectCode.ofCode? n with
  | none => exact Or.inr ⟨hn.mp h, rfl⟩
  | some code => exact Or.inl ⟨Decidable.not_not.mp fun h' => by simp [hn.mpr h'] at h, code, rfl⟩

/-- The levels are numbered from 0 to 2. -/
theorem ofLevel?_eq_none_iff (n : UInt8) : QoS.ofLevel? n = none ↔ ¬ n ≤ 2 := by
  have hlevel : ∀ n : Fin 256, QoS.ofLevel? (UInt8.ofFin n) = none ↔ ¬ UInt8.ofFin n ≤ 2 := by
    decide +kernel
  exact hlevel n.toFin

/-- A number that is no level is reported as it is. -/
theorem readQoS_cases (n : UInt8) :
    (n ≤ 2 ∧ ∃ qos, readQoS n = .ok qos) ∨ (¬ n ≤ 2 ∧ readQoS n = .error (.invalidQoS n)) := by
  have hn := ofLevel?_eq_none_iff n
  unfold readQoS
  cases h : QoS.ofLevel? n with
  | none => exact Or.inr ⟨hn.mp h, rfl⟩
  | some qos => exact Or.inl ⟨Decidable.not_not.mp fun h' => by simp [hn.mpr h'] at h, qos, rfl⟩

/-- A SUBACK grants a level, or refuses with 128. -/
theorem readGranted_cases (n : UInt8) :
    ((n ≤ 2 ∨ n = 0x80) ∧ ∃ granted, readGranted n = .ok granted) ∨
      (¬ (n ≤ 2 ∨ n = 0x80) ∧ readGranted n = .error (.invalidSubAckCode n)) := by
  have hn := ofLevel?_eq_none_iff n
  unfold readGranted
  by_cases hrefused : n = 0x80
  · rw [if_pos hrefused]
    exact Or.inl ⟨Or.inr hrefused, none, rfl⟩
  · rw [if_neg hrefused]
    cases h : QoS.ofLevel? n with
    | none => exact Or.inr ⟨fun h' => h'.elim (hn.mp h) hrefused, rfl⟩
    | some qos =>
        have hle : n ≤ 2 := Decidable.not_not.mp fun h' => by simp [hn.mpr h'] at h
        exact Or.inl ⟨Or.inl hle, some qos, rfl⟩

/-- The verdict of a CONNACK is checked where it is read. -/
theorem follows_connectCode :
    Follows kind .connectCode (byte kind >>= fun n => liftM (readConnectCode n)) := by
  refine follows_checked (· ≤ 5) .invalidConnectCode rfl readConnectCode_cases ?_ ?_
  · intro bs
    constructor
    · intro h
      cases h with
      | connectCode h => exact ⟨_, h, rfl⟩
    · rintro ⟨n, h, rfl⟩
      exact .connectCode h
  · intro n bs e
    constructor
    · intro h
      cases h with
      | missing hshort => exact absurd hshort (by simp [BodyField.leastSize])
      | connectCode h => exact ⟨UInt8.not_le.mpr h, rfl⟩
    · rintro ⟨h, rfl⟩
      exact .connectCode (UInt8.not_le.mp h)

/-- So is the level that a SUBSCRIBE asks for. -/
theorem follows_level : Follows kind .level (byte kind >>= fun n => liftM (readQoS n)) := by
  refine follows_checked (· ≤ 2) .invalidQoS rfl readQoS_cases ?_ ?_
  · intro bs
    constructor
    · intro h
      cases h with
      | level h => exact ⟨_, h, rfl⟩
    · rintro ⟨n, h, rfl⟩
      exact .level h
  · intro n bs e
    constructor
    · intro h
      cases h with
      | missing hshort => exact absurd hshort (by simp [BodyField.leastSize])
      | level h => exact ⟨UInt8.not_le.mpr h, rfl⟩
    · rintro ⟨h, rfl⟩
      exact .level (UInt8.not_le.mp h)

/-- So is the verdict of a SUBACK. -/
theorem follows_granted : Follows kind .granted (byte kind >>= fun n => liftM (readGranted n)) := by
  refine follows_checked (fun n => n ≤ 2 ∨ n = 0x80) .invalidSubAckCode rfl readGranted_cases ?_ ?_
  · intro bs
    constructor
    · intro h
      cases h with
      | granted h => exact ⟨_, h, rfl⟩
    · rintro ⟨n, h, rfl⟩
      exact .granted h
  · intro n bs e
    constructor
    · intro h
      cases h with
      | missing hshort => exact absurd hshort (by simp [BodyField.leastSize])
      | granted h hrefused => exact ⟨fun h' => h'.elim (UInt8.not_le.mpr h) hrefused, rfl⟩
    · rintro ⟨h, rfl⟩
      exact .granted (UInt8.not_le.mp fun hle => h (Or.inl hle)) fun heq => h (Or.inr heq)

/-! ### Readers of whole bodies -/

/-- Whether an error is what a body is rejected for: what reading it fails with, or
that bytes are left. -/
def Rejects (kind : PacketKind) (r : Reader α) (bs : List UInt8) (e : WireError) : Prop :=
  r.run bs = .error e ∨
    ∃ a rest, r.run bs = .ok (a, rest) ∧ rest ≠ [] ∧ e = .malformedBody kind

/-- Whether a reader of a body rejects what violates a layout, and nothing else. -/
def Guards (kind : PacketKind) (fs : List BodyField) (r : Reader α) : Prop :=
  ∀ bs e, Rejects kind r bs e ↔ Violates kind fs bs e

/-- Where no field is left, the bytes that are left are the violation. They are the
payload of a PUBLISH, so this is said of other packets. -/
theorem guards_pure (hkind : kind ≠ .publish) (a : α) : Guards kind [] (pure a : Reader α) := by
  intro bs e
  constructor
  · rintro (h | ⟨_, rest, h, hrest, rfl⟩)
    · cases h
    · obtain ⟨rfl, rfl⟩ := Prod.mk.inj (Except.ok.inj h)
      exact .trailing hkind hrest
  · intro h
    cases h with
    | trailing _ hrest => exact Or.inr ⟨a, bs, rfl, hrest, rfl⟩

/-- A payload is read to the end, whatever it is. -/
theorem guards_payload (f : List UInt8 → α) :
    Guards .publish [] (do return f (← rest) : Reader α) := by
  intro bs e
  constructor
  · rintro (h | ⟨_, rest, h, hrest, rfl⟩)
    · cases h
    · obtain ⟨rfl, rfl⟩ := Prod.mk.inj (Except.ok.inj h)
      exact absurd rfl hrest
  · intro h
    cases h with
    | trailing hkind => exact absurd rfl hkind

/-- A field is guarded in front of what is guarded already. -/
theorem Follows.guards {f : BodyField} {fs : List BodyField} {r : Reader α} {g : α → Reader β}
    (h : Follows kind f r) (hg : ∀ a, Guards kind fs (g a)) :
    Guards kind (f :: fs) (r >>= g) := by
  intro bs e
  constructor
  · intro hrejects
    -- Either the first field breaks, and what is behind it is not looked at, or it is taken off
    -- and the others are guarded behind it.
    cases hr : r.run bs with
    | error e' =>
        have hrun : (r >>= g).run bs = .error e' := by
          rw [StateT.run_bind, hr]
          rfl
        rcases hrejects with herror | ⟨_, _, hok, -⟩
        · obtain rfl := Except.error.inj (hrun.symm.trans herror)
          exact .here ((h.reports bs e').mp hr)
        · cases hrun.symm.trans hok
    | ok result =>
        obtain ⟨a, later⟩ := result
        have hrun : (r >>= g).run bs = (g a).run later := by
          rw [StateT.run_bind, hr]
          rfl
        obtain ⟨front, hfits, rfl⟩ := (h.takes bs later).mp ⟨a, hr⟩
        rw [Rejects, hrun] at hrejects
        exact .later hfits ((hg a later e).mp hrejects)
  · intro hviolates
    cases hviolates with
    | here hbreaks =>
        refine Or.inl ?_
        rw [StateT.run_bind, (h.reports bs e).mpr hbreaks]
        rfl
    | @later _ _ front later _ hfits hlater =>
        obtain ⟨a, hr⟩ := (h.takes (front ++ later) later).mpr ⟨front, hfits, rfl⟩
        have hrun : (r >>= g).run (front ++ later) = (g a).run later := by
          rw [StateT.run_bind, hr]
          rfl
        rw [Rejects, hrun]
        exact (hg a later e).mpr hlater

/-- A byte is checked before anything behind it is read. -/
theorem guards_checked {f : BodyField} {fs : List BodyField} {check : UInt8 → Except WireError α}
    {g : α → Reader β} (h : Follows kind f (byte kind >>= fun n => liftM (check n)))
    (hg : ∀ a, Guards kind fs (g a)) :
    Guards kind (f :: fs) (byte kind >>= fun n => (liftM (check n) : Reader α) >>= g) := by
  rw [← bind_assoc]
  exact h.guards hg

end Reader

namespace Packet

open Reader

/-- The body of a packet is rejected for the violations of its layout. -/
theorem guards_readBody {h : FixedHeader} (hkind : h.kind ≠ .connect) :
    Guards h.kind (h.kind.layout (h.qos ≠ .atMostOnce)) (readBody h) := by
  obtain ⟨kind, retain, qos, duplicate⟩ := h
  have hword : ∀ make : UInt16 → Packet, kind ≠ .publish →
      Guards kind [.word] (do return make (← word kind) : Reader Packet) :=
    fun make hkind => follows_word.guards fun _ => guards_pure hkind _
  cases kind with
  | connect => exact absurd rfl hkind
  | connAck =>
      exact follows_byte.guards fun flags => guards_checked follows_connectCode fun code =>
        guards_pure (by simp) _
  | publish =>
      by_cases hqos : qos = .atMostOnce
      · subst hqos
        exact follows_text.guards fun topic => guards_payload _
      -- Above level 0 an identifier stands between the topic and the payload.
      · have hlayout : PacketKind.publish.layout (qos ≠ .atMostOnce) = [.text, .word] := by
          simp [PacketKind.layout, hqos]
        show Guards _ (PacketKind.publish.layout (qos ≠ .atMostOnce)) _
        rw [hlayout]
        refine follows_text.guards fun topic => ?_
        dsimp only
        rw [if_neg hqos]
        exact follows_word.guards fun packetId => guards_payload _
  | subscribe =>
      exact follows_word.guards fun packetId => follows_text.guards fun topic =>
        guards_checked follows_level fun level => guards_pure (by simp) _
  | subAck =>
      exact follows_word.guards fun packetId => guards_checked follows_granted fun granted =>
        guards_pure (by simp) _
  | unsubscribe =>
      exact follows_word.guards fun packetId => follows_text.guards fun topic =>
        guards_pure (by simp) _
  | pubAck | pubRec | pubRel | pubComp | unsubAck => exact hword _ (by simp)
  | pingReq | pingResp | disconnect => exact guards_pure (by simp) _

/-- A whole body is refused for an error in it or for the bytes behind it. -/
theorem decodeWhole_eq_error_iff {h : FixedHeader} {body : List UInt8} {e : WireError} :
    decodeWhole h body = .error e ↔ Rejects h.kind (readBody h) body e := by
  unfold decodeWhole Rejects
  cases (readBody h).run body with
  | error e' => simp [bind, Except.bind]
  | ok result =>
      obtain ⟨packet, rest⟩ := result
      cases rest with
      | nil => simp [bind, Except.bind, pure, Except.pure]
      | cons b rest =>
          constructor
          · intro herror
            exact Or.inr ⟨packet, b :: rest, rfl, by simp, (Except.error.inj herror).symm⟩
          · rintro (herror | ⟨_, _, -, -, rfl⟩)
            · cases herror
            · rfl

end Packet

/-! ### The first byte -/

/-- The numbers of kinds are those of four bits, but for the first and the last. -/
theorem readKind_shift_cases (b : UInt8) :
    ((b >>> 4 = 0 ∨ b >>> 4 = 15) ∧ readKind (b >>> 4) = .error (.unknownPacketKind (b >>> 4))) ∨
      (¬ (b >>> 4 = 0 ∨ b >>> 4 = 15) ∧ ∃ kind, readKind (b >>> 4) = .ok kind ∧
        b >>> 4 = kind.code) := by
  have hnibble : ∀ n : Fin 256, PacketKind.ofCode? (UInt8.ofFin n >>> 4) = none ↔
      UInt8.ofFin n >>> 4 = 0 ∨ UInt8.ofFin n >>> 4 = 15 := by
    decide +kernel
  have hb : PacketKind.ofCode? (b >>> 4) = none ↔ b >>> 4 = 0 ∨ b >>> 4 = 15 := hnibble b.toFin
  unfold readKind
  cases h : PacketKind.ofCode? (b >>> 4) with
  | none => exact Or.inl ⟨hb.mp h, rfl⟩
  | some kind =>
      exact Or.inr ⟨fun h' => by simp [hb.mpr h'] at h, kind, rfl,
        PacketKind.ofCode?_eq_some_iff.mp h⟩

/-- The level in a first byte has no meaning where both of its bits are set. -/
theorem readQoS_shift_cases (b : UInt8) :
    (b &&& 6 = 6 ∧ readQoS ((b >>> 1) &&& 3) = .error (.invalidQoS 3)) ∨
      (b &&& 6 ≠ 6 ∧ ∃ qos, readQoS ((b >>> 1) &&& 3) = .ok qos ∧
        (qos = .atMostOnce ↔ b &&& 6 = 0)) := by
  have hbits : ∀ n : Fin 256, ∃ qos : Fin 4,
      (UInt8.ofFin n >>> 1) &&& 3 = qos.val.toUInt8 ∧
        UInt8.ofFin n &&& 6 = qos.val.toUInt8 * 2 := by
    decide +kernel
  obtain ⟨level, hlevel, hsix⟩ := hbits b.toFin
  replace hlevel : (b >>> 1) &&& 3 = level.val.toUInt8 := hlevel
  replace hsix : b &&& 6 = level.val.toUInt8 * 2 := hsix
  rw [hlevel, hsix]
  match level with
  | 0 => exact Or.inr ⟨by decide, .atMostOnce, rfl, by decide⟩
  | 1 => exact Or.inr ⟨by decide, .atLeastOnce, rfl, by decide⟩
  | 2 => exact Or.inr ⟨by decide, .exactlyOnce, rfl, by decide⟩
  | 3 => exact Or.inl ⟨by decide, rfl⟩

/-- A first byte has a kind and a level, or is blamed for the one that it lacks. -/
theorem FixedHeader.ofByte_cases (b : UInt8) :
    ((b >>> 4 = 0 ∨ b >>> 4 = 15) ∧ ofByte b = .error (.unknownPacketKind (b >>> 4))) ∨
      (¬ (b >>> 4 = 0 ∨ b >>> 4 = 15) ∧ b &&& 6 = 6 ∧ ofByte b = .error (.invalidQoS 3)) ∨
      (¬ (b >>> 4 = 0 ∨ b >>> 4 = 15) ∧ b &&& 6 ≠ 6 ∧ ∃ h, ofByte b = .ok h ∧
        b >>> 4 = h.kind.code ∧ (h.qos = .atMostOnce ↔ b &&& 6 = 0)) := by
  unfold ofByte
  rcases readKind_shift_cases b with ⟨hunknown, hkind⟩ | ⟨hknown, kind, hkind, hcode⟩
  · rw [hkind]
    exact Or.inl ⟨hunknown, rfl⟩
  · rcases readQoS_shift_cases b with ⟨hboth, hqos⟩ | ⟨hone, qos, hqos, hlevel⟩
    · rw [hkind, hqos]
      exact Or.inr (Or.inl ⟨hknown, hboth, rfl⟩)
    · rw [hkind, hqos]
      exact Or.inr (Or.inr ⟨hknown, hone, _, rfl, hcode, hlevel⟩)

/-- Flags that a kind does not allow are reported with the kind. -/
theorem PacketKind.checkFlags_cases (kind : PacketKind) (flags : UInt8) :
    (¬ kind.AllowsFlags flags ∧ kind.checkFlags flags = .error (.invalidFlags kind flags)) ∨
      (kind.AllowsFlags flags ∧ kind.checkFlags flags = .ok ()) := by
  cases kind with
  | publish => exact Or.inr ⟨Or.inl rfl, rfl⟩
  | subscribe | unsubscribe | pubRel =>
      by_cases h : flags = 2
      · exact Or.inr ⟨Or.inr h, if_pos h⟩
      · exact Or.inl ⟨by simp [AllowsFlags, h], if_neg h⟩
  | _ =>
      by_cases h : flags = 0
      · exact Or.inr ⟨Or.inr h, if_pos h⟩
      · exact Or.inl ⟨by simp [AllowsFlags, h], if_neg h⟩

/-- No two kinds have the same number. -/
theorem PacketKind.code_inj {kind kind' : PacketKind} (h : kind.code = kind'.code) :
    kind = kind' :=
  Option.some.inj (kind.ofCode?_code.symm.trans (h ▸ kind'.ofCode?_code))

namespace Frame

/-- A frame is refused for what it is blamed for. The checks are followed in the order
in which they are made, and each is passed before the next. -/
theorem decode_eq_error_iff {first : UInt8} {body : List UInt8} {e : WireError} :
    decode ⟨first, body⟩ = .error e ↔ Blamed first body e := by
  unfold Blamed
  have herror : ∀ {fault : WireError}, decode ⟨first, body⟩ = .error fault →
      (decode ⟨first, body⟩ = .error e ↔ e = fault) := by
    intro fault hfault
    rw [hfault]
    exact ⟨fun h => (Except.error.inj h).symm, congrArg Except.error ∘ Eq.symm⟩
  rcases FixedHeader.ofByte_cases first with
    ⟨hunknown, hbyte⟩ | ⟨hknown, hboth, hbyte⟩ | ⟨hknown, hone, h, hbyte, hcode, hlevel⟩
  · rw [if_pos hunknown]
    exact herror (by rw [decode, hbyte]; rfl)
  · rw [if_neg hknown, if_pos hboth]
    exact herror (by rw [decode, hbyte]; rfl)
  · rw [if_neg hknown, if_neg hone]
    -- There is but one kind with the number.
    refine Iff.trans ?_ ⟨fun hblame => ⟨h.kind, hcode, hblame⟩,
      fun ⟨kind, hkind, hblame⟩ => PacketKind.code_inj (hkind.symm.trans hcode) ▸ hblame⟩
    have hdecode : decode ⟨first, body⟩ =
        (h.kind.checkFlags (first &&& 0x0F) >>= fun _ => Packet.decodeWhole h body) := by
      rw [decode, hbyte]
      rfl
    rcases h.kind.checkFlags_cases (first &&& 0x0F) with ⟨hwrong, hflags⟩ | ⟨hright, hflags⟩
    · rw [if_pos hwrong]
      exact herror (by rw [hdecode, hflags]; rfl)
    · rw [hflags] at hdecode
      rw [if_neg (not_not_intro hright)]
      by_cases hconnect : h.kind = .connect
      · rw [if_pos hconnect]
        refine herror (hdecode.trans ?_)
        show Packet.decodeWhole h body = _
        rw [Packet.decodeWhole, Packet.readBody, hconnect]
        rfl
      · have hhasId : decide (h.qos ≠ .atMostOnce) = decide (first &&& 6 ≠ 0) := by
          rw [decide_eq_decide, ne_eq, hlevel]
        rw [if_neg hconnect, ← hhasId, ← Packet.guards_readBody hconnect body e,
          ← Packet.decodeWhole_eq_error_iff, hdecode]
        rfl

/-- A frame is not read exactly if it is blamed for something, and for one thing only.
It is never called too long, nor is a text of it or its length field, and its body is
only blamed for what a packet of its kind has. -/
theorem decode_error_attribution (first : UInt8) (body : List UInt8) (e : WireError) :
    (decode ⟨first, body⟩ = .error e ↔ Blamed first body e) ∧
    (decode ⟨first, body⟩ = .error e → (∀ size, e ≠ .packetTooBig size) ∧
      (∀ length, e ≠ .stringTooBig length) ∧ e ≠ .malformedLength) ∧
    (∀ (kind : PacketKind) (hasId : Bool), Violates kind (kind.layout hasId) body e →
      kind.MayReport e) := by
  refine ⟨decode_eq_error_iff, fun hdecode => ?_, fun kind hasId h => h.mayReport⟩
  have hblamed := decode_eq_error_iff.mp hdecode
  unfold Blamed at hblamed
  split at hblamed
  · simp [hblamed]
  · split at hblamed
    · simp [hblamed]
    · obtain ⟨kind, -, hblamed⟩ := hblamed
      split at hblamed
      · simp [hblamed]
      · split at hblamed
        · simp [hblamed]
        · have hreport := hblamed.mayReport
          refine ⟨?_, ?_, ?_⟩
          · rintro size rfl
            exact hreport
          · rintro length rfl
            exact hreport
          · rintro rfl
            exact hreport

/-- Of three faults in the body of a SUBSCRIBE, the first one is reported: its topic is
no UTF-8, its level has no meaning, and a byte is left. -/
example : decode ⟨0x82, [0, 1, 0, 2, 0xC3, 0x28, 3, 7]⟩
    = .error (.stringNotUtf8 (.invalid 1 0)) := by
  cbv

end Frame

end Mqtt
