import Mqtt.Proofs.Client.Handshake
import Mqtt.Proofs.Topic.Filter
import Mqtt.Proofs.Wire.Connect

/-!
# `Mqtt.Proofs.Settings`: which settings can be sent

A draft is checked when settings are built of it (`SettingsDraft.Checked`). The checks
cover the client identifier and the topic of the will, but no other field of the CONNECT
that these settings have. The rest (`Settings.unchecked`) can keep it from being written,
and then no connection is ever made.

* `SettingsDraft.build_eq_ok`: what the draft of built settings was checked for.
* `SettingsDraft.fault?_toConnect`: the CONNECT of settings that were built has the fault
  of what was not checked.
* `Core.connect_of_unwritable`: connecting with such settings fails.
* `SettingsDraft.encode_of_build`: all of it, for every draft.
-/

set_option autoImplicit false

namespace Mqtt

open SizedField (text binary)

/-! ### What is checked -/

namespace SettingsDraft

/-- What a draft is checked for. A choice that was not made is not looked at. -/
structure Checked (d : SettingsDraft) : Prop where
  hostname : ∀ hostname, d.hostname = some hostname → hostname ≠ ""
  clientId : ∀ id, d.clientId = some id → id ≠ "" ∧ (text id).fault? = none
  will : ∀ will, d.will = some will → Topic.isName will.topic = true

/-- A host name that was chosen must not be empty. -/
theorem checkHostname_eq_ok_iff {choice : Option String} :
    checkHostname choice = .ok () ↔ ∀ hostname, choice = some hostname → hostname ≠ "" := by
  cases choice with
  | none => simp [checkHostname]
  | some hostname =>
      by_cases hempty : hostname = ""
      · simp [checkHostname, hempty]
      · simp [checkHostname, hempty]

/-- A client identifier that was chosen must not be empty, and it must be a text that
can be written. -/
theorem checkClientId_eq_ok_iff {choice : Option String} :
    checkClientId choice = .ok () ↔
      ∀ id, choice = some id → id ≠ "" ∧ (text id).fault? = none := by
  cases choice with
  | none => simp [checkClientId]
  | some id =>
      by_cases hempty : id = ""
      · simp [checkClientId, hempty]
      · rw [checkClientId, validateText_eq]
        cases hfault : (text id).fault? <;> simp [hempty, hfault, Except.mapError]

/-- The topic of a will must be a topic name. Nothing else of the will is checked. -/
theorem checkWill_eq_ok_iff {choice : Option Message} :
    checkWill choice = .ok () ↔
      ∀ will, choice = some will → Topic.isName will.topic = true := by
  cases choice with
  | none => simp [checkWill]
  | some will =>
      cases hname : Topic.isName will.topic <;> simp [checkWill, hname]

/-- Settings are built of a draft that was checked, if nothing is missing. What else was
chosen is taken as it is. -/
theorem build_eq_ok {d : SettingsDraft} {s : Settings} (h : d.build = .ok s) :
    d.Checked ∧ d.hostname = some s.hostname ∧ d.clientId = some s.clientId ∧
      d.username = s.username ∧ d.password = s.password ∧ d.will = s.will := by
  obtain ⟨⟨⟩, hhostname, h⟩ := bind_eq_ok h
  obtain ⟨⟨⟩, hclientId, h⟩ := bind_eq_ok h
  obtain ⟨⟨⟩, hwill, h⟩ := bind_eq_ok h
  refine ⟨⟨checkHostname_eq_ok_iff.mp hhostname, checkClientId_eq_ok_iff.mp hclientId,
    checkWill_eq_ok_iff.mp hwill⟩, ?_⟩
  cases hname : d.hostname with
  | none =>
      rw [hname] at h
      cases h
  | some hostname =>
      cases hid : d.clientId with
      | none =>
          rw [hname, hid] at h
          cases h
      | some clientId =>
          rw [hname, hid] at h
          obtain rfl := Except.ok.inj h
          exact ⟨rfl, rfl, rfl, rfl, rfl⟩

end SettingsDraft

/-! ### What is not checked -/

/-- The fields of CONNECT that building the settings does not look at. -/
def Settings.unchecked (s : Settings) : List SizedField :=
  (s.will.toList.map fun will => binary will.payload) ++
    (Connect.optionalSizedField (presentText s.username)
      ++ Connect.optionalSizedField (presentText s.password))

/-- What can be at fault in an optional text is the text. -/
theorem Connect.optionalSizedField_sound_iff {s : Option String} :
    (∀ f ∈ Connect.optionalSizedField (presentText s), f.fault? = none) ↔
      ∀ t, s = some t → t.utf8ByteSize ≤ 65535 ∧ '\x00' ∉ t.toList := by
  cases s with
  | none => simp [Connect.optionalSizedField, presentText]
  | some t =>
      by_cases hempty : t = ""
      · -- An empty text is not written, and could be.
        simp [Connect.optionalSizedField, presentText, hempty]
      · simp [Connect.optionalSizedField, presentText, hempty,
          SizedField.fault?_text_eq_none_iff, maxTextLength]

namespace SettingsDraft

/-- What was checked is not at fault, so the CONNECT has the fault of the rest. -/
theorem fault?_toConnect {d : SettingsDraft} {s : Settings} (h : d.build = .ok s) :
    s.toConnect.fault? = s.unchecked.findSome? SizedField.fault? := by
  obtain ⟨hchecked, -, hid, -, -, hwill⟩ := build_eq_ok h
  have hclientId : (text s.clientId).fault? = none := (hchecked.clientId _ hid).2
  have hfields : s.toConnect.sizedFields = text s.clientId ::
      (Connect.willSizedFields s.will ++ (Connect.optionalSizedField (presentText s.username)
        ++ Connect.optionalSizedField (presentText s.password))) := by
    unfold Settings.toConnect Packet.sizedFields Connect.sizedFields
    dsimp only
    rw [presentText_presentText, presentText_presentText]
  have hrest : (Connect.willSizedFields s.will).findSome? SizedField.fault?
      = (s.will.toList.map fun will => binary will.payload).findSome? SizedField.fault? := by
    cases hcase : s.will with
    | none => rfl
    | some will =>
        have hname := hchecked.will will (hwill.trans hcase)
        have htopic := Topic.fault?_of_isSendable (Bool.and_eq_true_iff.mp hname).1
        rw [Connect.willSizedFields, List.findSome?_cons, htopic]
        rfl
  rw [Packet.fault?_of_kind_ne (by simp [Settings.toConnect, Packet.kind]), hfields,
    Settings.unchecked]
  simp only [List.findSome?_cons, hclientId, List.findSome?_append, hrest]

end SettingsDraft

/-! ### What cannot be sent -/

/-- With settings whose CONNECT cannot be written every attempt to connect fails, and
with this very fault where the network lets it come to that. -/
theorem Core.connect_of_unwritable {core : Core} {e : WireError}
    (h : core.settings.toConnect.encode = .error e) (now : Nat) (opening : Option ClientError) :
    (∃ failure, (core.connect now opening).2.2 = some failure) ∧
      (opening = none → core.link.outcomes.head?.join = none →
        (core.connect now opening).2.2 = some (.wire e)) := by
  have hunwritable : Link.unwritable core.settings.toConnect = some (.wire e) := by
    rw [Link.unwritable, h]
  obtain ⟨failure, hoffer, hwire⟩ : ∃ failure, core.offer.1 = some failure ∧
      (core.link.outcomes.head?.join = none → failure = .wire e) := by
    unfold Core.offer Link.write
    split
    · exact ⟨_, hunwritable, fun _ => rfl⟩
    · exact ⟨_, hunwritable, fun _ => rfl⟩
    · next failure outcomes heq => exact ⟨failure, rfl, by simp [heq]⟩
  cases opening with
  | some failure =>
      rw [connect_unopened]
      exact ⟨⟨failure, rfl⟩, by simp⟩
  | none =>
      rw [connect_unwritten hoffer]
      exact ⟨⟨failure, rfl⟩, fun _ hlet => congrArg some (hwire hlet)⟩

namespace SettingsDraft

/-- Settings that are built can be sent exactly if the user name, the password and the
payload of the will can be, which building does not look at. Otherwise the first of
these that is at fault is reported, and no attempt to connect ever succeeds. -/
theorem encode_of_build {d : SettingsDraft} {s : Settings} (h : d.build = .ok s) :
    ((∃ bytes, s.toConnect.encode = .ok bytes) ↔
      (∀ will, d.will = some will → will.payload.length ≤ 65535) ∧
      (∀ t, d.username = some t → t.utf8ByteSize ≤ 65535 ∧ '\x00' ∉ t.toList) ∧
      ∀ t, d.password = some t → t.utf8ByteSize ≤ 65535 ∧ '\x00' ∉ t.toList) ∧
    ∀ e, s.toConnect.encode = .error e →
      s.unchecked.findSome? SizedField.fault? = some e ∧
      ∀ (core : Core) (now : Nat) (opening : Option ClientError), core.settings = s →
        (∃ failure, (core.connect now opening).2.2 = some failure) ∧
        (opening = none → core.link.outcomes.head?.join = none →
          (core.connect now opening).2.2 = some (.wire e)) := by
  obtain ⟨-, -, -, husername, hpassword, hwill⟩ := build_eq_ok h
  constructor
  · have hpayload : (∀ f ∈ s.will.toList.map fun will => binary will.payload, f.fault? = none) ↔
        ∀ will, s.will = some will → will.payload.length ≤ 65535 := by
      simp [SizedField.fault?_binary_eq_none_iff, maxTextLength]
    rw [Packet.exists_encode_iff, fault?_toConnect h, List.findSome?_eq_none_iff, hwill,
      husername, hpassword, Settings.unchecked, List.forall_mem_append, List.forall_mem_append,
      hpayload, Connect.optionalSizedField_sound_iff, Connect.optionalSizedField_sound_iff]
  · intro e he
    refine ⟨(fault?_toConnect h).symm.trans (Packet.encode_eq_error_iff.mp he), ?_⟩
    rintro core now opening rfl
    exact Core.connect_of_unwritable he now opening

/-- A draft whose user name holds a U+0000. -/
def nulDraft : SettingsDraft :=
  { hostname := some "broker.test", port := none, clientId := some "c"
    username := some "a\x00b", password := none, cleanSession := none, will := none
    keepAlive := none, transport := none, version := none }

/-- Building finds nothing wrong with it, and its CONNECT cannot be written. -/
theorem unwritable_nulDraft :
    ∃ s, nulDraft.build = .ok s ∧ s.toConnect.encode = .error (.invalidString "a\x00b") :=
  ⟨_, rfl, rfl⟩

/-- No client with these settings makes a connection. -/
theorem encode_of_build_nulDraft :
    ∃ s, nulDraft.build = .ok s ∧ ∀ (link : Link) (now : Nat), link.outcomes = [] →
      ((Core.new s .empty link now).connect now none).2.2
        = some (.wire (.invalidString "a\x00b")) := by
  refine ⟨_, rfl, ?_⟩
  intro link now hlink
  refine (((encode_of_build (d := nulDraft) rfl).2 _ rfl).2 (Core.new _ .empty link now) now none
    rfl).2 rfl ?_
  show link.outcomes.head?.join = none
  rw [hlink]
  rfl

end SettingsDraft

end Mqtt
