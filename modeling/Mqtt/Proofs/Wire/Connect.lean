import Mqtt.Proofs.Wire.Fault
import Mqtt.Proofs.Wire.RoundTrip

/-!
# `Mqtt.Proofs.Wire.Connect`: a CONNECT loses nothing

The optional fields of a CONNECT are told apart by its flags only. A reader that is led
by them finds every field again.

* `Connect.flags_bits`: the flags say which fields are there, and what is not in the will's
  own fields. Without a will they say nothing of one (`Connect.flags_of_no_will`), and
  there is no level 3 (`Connect.flags_level_ne`).
* `Connect.reads_read`: a body is read back, field by field, up to what no field carries
  (`Connect.normal`).
* `Connect.encode_tells`: so two packets have the same bytes exactly if they agree
  (`Connect.Agree`).
-/

set_option autoImplicit false

namespace Mqtt

/-- What the wire tells of a will: it has no identifier and no duplicate flag. -/
def Message.asWill (m : Message) : Message :=
  { m with duplicate := false, packetId := 0 }

/-- A text that is left out is left out once for all. -/
theorem presentText_presentText (s : Option String) :
    presentText (presentText s) = presentText s := by
  unfold presentText
  rw [Option.filter_filter]
  simp

namespace Connect

/-- What the wire tells of a CONNECT. -/
def normal (c : Connect) : Connect :=
  { c with
    will := c.will.map Message.asWill
    username := presentText c.username
    password := presentText c.password }

/-- Whether two CONNECT packets say the same. An empty user name or password counts as
absent, and a will has no identifier and no duplicate flag. -/
structure Agree (c c' : Connect) : Prop where
  protocolLevel : c.protocolLevel = c'.protocolLevel
  cleanSession : c.cleanSession = c'.cleanSession
  keepAlive : c.keepAlive = c'.keepAlive
  clientId : c.clientId = c'.clientId
  will : c.will.map (fun m => (m.topic, m.payload, m.qos, m.retain))
    = c'.will.map fun m => (m.topic, m.payload, m.qos, m.retain)
  username : presentText c.username = presentText c'.username
  password : presentText c.password = presentText c'.password

/-! ### The flags -/

/-- What every bit of the flags says: which fields are there, the level and the retain
flag of the will, and nothing in the lowest bit. -/
theorem flags_bits (c : Connect) :
    (c.flags &&& 0x80 ≠ 0 ↔ (presentText c.username).isSome = true) ∧
    (c.flags &&& 0x40 ≠ 0 ↔ (presentText c.password).isSome = true) ∧
    (c.flags &&& 0x04 ≠ 0 ↔ c.will.isSome = true) ∧
    (c.flags &&& 0x02 ≠ 0 ↔ c.cleanSession = true) ∧
    (c.flags >>> 3) &&& 3 = (c.will.map fun will => will.qos.level).getD 0 ∧
    (c.flags &&& 0x20 ≠ 0 ↔ c.will.any Message.retain = true) ∧
    c.flags &&& 0x01 = 0 := by
  unfold flags
  -- The bits depend on the fields by a few small values only.
  generalize (presentText c.username).isSome = username
  generalize (presentText c.password).isSome = password
  generalize c.cleanSession = cleanSession
  cases c.will with
  | none => cases username <;> cases password <;> cases cleanSession <;> decide
  | some will =>
      simp only [willFlags, Option.isSome_some, Option.map_some, Option.getD_some, Option.any_some]
      generalize will.qos = qos
      generalize will.retain = retain
      cases username <;> cases password <;> cases cleanSession <;> cases qos <;> cases retain <;>
        decide

/-- Without a will all bits that describe one are clear. -/
theorem flags_of_no_will {c : Connect} (h : c.will = none) : c.flags &&& 0x38 = 0 := by
  unfold flags
  rw [h]
  generalize (presentText c.username).isSome = username
  generalize (presentText c.password).isSome = password
  generalize c.cleanSession = cleanSession
  cases username <;> cases password <;> cases cleanSession <;> decide

/-- The level of a will is never 3. -/
theorem flags_level_ne (c : Connect) : (c.flags >>> 3) &&& 3 ≠ 3 := by
  obtain ⟨-, -, -, -, hlevel, -⟩ := c.flags_bits
  rw [hlevel]
  cases c.will with
  | none => decide
  | some will =>
      show will.qos.level ≠ 3
      cases will.qos <;> decide

open Reader

/-! ### Reading a body back -/

/-- A body is a row of fields. -/
theorem body_eq_ok {c : Connect} {body : List UInt8} (h : c.body = .ok body) :
    ∃ name clientId will username password,
      textField c.protocolLevel.protocolName = .ok name ∧
      textField c.clientId = .ok clientId ∧
      willFields c.will = .ok will ∧
      optionalTextField (presentText c.username) = .ok username ∧
      optionalTextField (presentText c.password) = .ok password ∧
      body = name ++ ([c.protocolLevel.level] ++ ([c.flags] ++ (wordBytes c.keepAlive ++
        (clientId ++ (will ++ (username ++ password)))))) := by
  obtain ⟨name, hname, h⟩ := bind_eq_ok h
  obtain ⟨clientId, hclientId, h⟩ := bind_eq_ok h
  obtain ⟨will, hwill, h⟩ := bind_eq_ok h
  obtain ⟨username, husername, h⟩ := bind_eq_ok h
  obtain ⟨password, hpassword, h⟩ := bind_eq_ok h
  obtain rfl := Except.ok.inj h
  refine ⟨name, clientId, will, username, password, hname, hclientId, hwill, husername,
    hpassword, ?_⟩
  simp only [List.append_assoc, List.cons_append, List.nil_append]

/-- Binary data is read back from its field. -/
theorem reads_binaryField (kind : PacketKind) {bs bytes : List UInt8}
    (h : binaryField bs = .ok bytes) : Reads (binary kind) bytes bs := by
  unfold binaryField at h
  split at h
  · cases h
  · next hshort =>
      obtain rfl := Except.ok.inj h
      exact reads_binary kind bs (Nat.le_of_not_lt hshort)

/-- What may be left out is read where its bit says that it is there. -/
theorem reads_present {α : Type} {P : Prop} [Decidable P] {field : Reader α} {bytes : List UInt8}
    {a : Option α} (hbit : P ↔ a.isSome = true) (hnone : a = none → bytes = [])
    (hsome : ∀ b, a = some b → Reads field bytes b) :
    Reads (readOptional (decide P) field) bytes a := by
  cases a with
  | none =>
      rw [hnone rfl, decide_eq_false (fun h => Bool.noConfusion (hbit.mp h))]
      exact reads_pure none
  | some b =>
      rw [decide_eq_true (hbit.mpr rfl)]
      exact (hsome b rfl).map some

/-- An optional text is read back. -/
theorem reads_optionalText {P : Prop} [Decidable P] {s : Option String} {bytes : List UInt8}
    (h : optionalTextField s = .ok bytes) (hbit : P ↔ s.isSome = true) :
    Reads (readOptional (decide P) (text .connect)) bytes s := by
  refine reads_present hbit ?_ ?_
  · rintro rfl
    exact (Except.ok.inj h).symm
  · rintro s rfl
    exact reads_text .connect h

/-- So is a will, together with what the flags say of it. -/
theorem reads_will {c : Connect} {bytes : List UInt8} (h : willFields c.will = .ok bytes) :
    Reads (readOptional (decide (c.flags &&& 0x04 ≠ 0)) (readWill c.flags)) bytes
      (c.will.map Message.asWill) := by
  obtain ⟨-, -, hbit, -, hlevel, hretain, -⟩ := c.flags_bits
  cases hwill : c.will with
  | none =>
      rw [hwill] at h hbit
      exact reads_present hbit (fun _ => (Except.ok.inj h).symm) (by simp)
  | some will =>
      rw [hwill] at h hbit hlevel hretain
      obtain ⟨topic, htopic, h⟩ := bind_eq_ok h
      obtain ⟨payload, hpayload, h⟩ := bind_eq_ok h
      obtain rfl := Except.ok.inj h
      refine reads_present hbit (by simp) ?_
      intro told htold
      obtain rfl := Option.some.inj htold
      have hretain' : decide (c.flags &&& 0x20 ≠ 0) = will.retain := by
        rw [Bool.eq_iff_iff, decide_eq_true_iff]
        exact hretain
      have hread : Reads (readWill c.flags) (topic ++ (payload ++ [])) will.asWill := by
        refine (reads_text .connect htopic).bind ((reads_binaryField .connect hpayload).bind ?_)
        rw [hlevel, hretain']
        exact (reads_lift (readQoS_level will.qos)).map _
      rw [List.append_nil] at hread
      exact hread

/-- A body is read back. -/
theorem reads_read {c : Connect} {body : List UInt8} (h : c.body = .ok body) :
    Reads read body c.normal := by
  obtain ⟨name, clientId, will, username, password, hname, hclientId, hwill, husername,
    hpassword, rfl⟩ := body_eq_ok h
  obtain ⟨hbitUsername, hbitPassword, -, hbitClean, -⟩ := c.flags_bits
  refine (reads_text .connect hname).bind ((reads_byte .connect _).bind ?_)
  have hlevel : ProtocolLevel.ofLevel? c.protocolLevel.level.toNat = some c.protocolLevel := by
    cases c.protocolLevel <;> rfl
  rw [hlevel]
  dsimp only
  rw [if_pos rfl]
  have hclean : decide (c.flags &&& 0x02 ≠ 0) = c.cleanSession := by
    rw [Bool.eq_iff_iff, decide_eq_true_iff]
    exact hbitClean
  refine (reads_byte .connect _).bind ((reads_word .connect _).bind
    ((reads_text .connect hclientId).bind ((reads_will hwill).bind
    ((reads_optionalText husername hbitUsername).bind ?_))))
  rw [hclean]
  exact (reads_optionalText hpassword hbitPassword).map _

/-! ### Packets that agree -/

/-- Two packets agree exactly if the wire tells the same of them. -/
theorem agree_iff {c c' : Connect} : c.Agree c' ↔ c.normal = c'.normal := by
  constructor
  · rintro ⟨hlevel, hclean, hkeep, hclientId, hwill, husername, hpassword⟩
    -- What is told of a will is made of the four fields that are compared.
    have hmade : ∀ will : Option Message, will.map Message.asWill
        = (will.map fun m => (m.topic, m.payload, m.qos, m.retain)).map
          fun t => (⟨t.1, t.2.1, t.2.2.1, t.2.2.2, false, 0⟩ : Message) := by
      intro will
      cases will <;> rfl
    unfold normal
    rw [hlevel, hclean, hkeep, hclientId, husername, hpassword, hmade, hwill, ← hmade]
  · intro h
    have hkept : ∀ will : Option Message,
        will.map (fun m => (m.topic, m.payload, m.qos, m.retain))
          = (will.map Message.asWill).map fun m => (m.topic, m.payload, m.qos, m.retain) := by
      intro will
      cases will <;> rfl
    have hfield : ∀ {α : Type} (f : Connect → α), f c.normal = f c'.normal :=
      fun f => congrArg f h
    refine ⟨hfield protocolLevel, hfield cleanSession, hfield keepAlive, hfield clientId, ?_,
      hfield username, hfield password⟩
    have hwill : c.will.map Message.asWill = c'.will.map Message.asWill := hfield will
    rw [hkept, hwill, ← hkept]

/-- A CONNECT agrees with what the wire tells of it. -/
theorem agree_normal (c : Connect) : c.Agree c.normal := by
  refine agree_iff.mpr ?_
  unfold normal
  rw [presentText_presentText, presentText_presentText, Option.map_map]
  rfl

/-- Packets that agree are written alike. -/
theorem body_normal (c : Connect) : c.normal.body = c.body := by
  have husername : presentText c.normal.username = presentText c.username :=
    presentText_presentText c.username
  have hpassword : presentText c.normal.password = presentText c.password :=
    presentText_presentText c.password
  have hwill : willFields c.normal.will = willFields c.will := by
    show willFields (c.will.map Message.asWill) = _
    cases c.will <;> rfl
  have hflags : c.normal.flags = c.flags := by
    have hwillFlags : willFlags c.normal.will = willFlags c.will := by
      show willFlags (c.will.map Message.asWill) = _
      cases c.will <;> rfl
    unfold flags
    rw [husername, hpassword, hwillFlags]
    rfl
  unfold body
  rw [husername, hpassword, hwill, hflags]
  rfl

/-- So packets that agree have the same bytes. -/
theorem encode_eq_of_agree {c c' : Connect} (h : c.Agree c') :
    (Packet.connect c).encode = (Packet.connect c').encode := by
  have hbody : (Packet.connect c).body = (Packet.connect c').body := by
    show c.body = c'.body
    rw [← body_normal, agree_iff.mp h, body_normal]
  unfold Packet.encode
  rw [hbody]
  rfl

/-- The bytes of a CONNECT are one frame, whose body is read back. The flags stand behind
the protocol name and the level. -/
theorem read_of_encode {c : Connect} {bytes : List UInt8}
    (h : (Packet.connect c).encode = .ok bytes) :
    ∃ body, Frame.split? bytes = .ok (some (⟨0x10, body⟩, [])) ∧
      read.run body = .ok (c.normal, []) ∧
      body[c.protocolLevel.protocolName.utf8ByteSize + 3]? = some c.flags := by
  obtain ⟨body, field, hbody, hfield, rfl⟩ := Packet.encode_cases h
  have hfirst : (Packet.connect c).header.toByte = 0x10 := by
    show (⟨.connect, false, .atMostOnce, false⟩ : FixedHeader).toByte = 0x10
    decide
  rw [hfirst]
  refine ⟨body, ?_, ?_, ?_⟩
  · have hsplit := Packet.split?_append 0x10 hfield []
    rw [List.append_nil] at hsplit
    exact hsplit
  · have hread := reads_read hbody []
    rw [List.append_nil] at hread
    exact hread
  · obtain ⟨name, clientId, will, username, password, hname, -, -, -, -, rfl⟩ := body_eq_ok hbody
    obtain ⟨name', hname', hlength⟩ := textField_protocolName c.protocolLevel
    obtain rfl := Except.ok.inj (hname.symm.trans hname')
    rw [List.getElem?_append_right (by omega), hlength,
      show ∀ n, n + 3 - (n + 2) = 1 by omega]
    rfl

/-- The bytes of a CONNECT tell all of its fields. Two packets have the same bytes exactly
if they agree; a reader that is led by the flags finds every field, and nothing is left.
The lowest bit of the flags is clear, without a will so are all bits that describe one,
and the level 3 does not occur. -/
theorem encode_tells :
    (∀ (c c' : Connect) (bytes bytes' : List UInt8), (Packet.connect c).encode = .ok bytes →
      (Packet.connect c').encode = .ok bytes' → (bytes = bytes' ↔ c.Agree c')) ∧
    (∀ (c : Connect) (bytes : List UInt8), (Packet.connect c).encode = .ok bytes →
      ∃ body, Frame.split? bytes = .ok (some (⟨0x10, body⟩, [])) ∧
        read.run body = .ok (c.normal, []) ∧ c.Agree c.normal ∧
        body[c.protocolLevel.protocolName.utf8ByteSize + 3]? = some c.flags) ∧
    ∀ c : Connect, c.flags &&& 0x01 = 0 ∧ (c.will = none → c.flags &&& 0x38 = 0) ∧
      (c.flags >>> 3) &&& 3 ≠ 3 := by
  refine ⟨?_, ?_, ?_⟩
  · intro c c' bytes bytes' h h'
    constructor
    · rintro rfl
      obtain ⟨body, hsplit, hread, -⟩ := read_of_encode h
      obtain ⟨body', hsplit', hread', -⟩ := read_of_encode h'
      -- It is the same frame, and it is read once.
      cases hsplit.symm.trans hsplit'
      exact agree_iff.mpr (Prod.mk.inj (Except.ok.inj (hread.symm.trans hread'))).1
    · intro hagree
      exact Except.ok.inj (h.symm.trans ((encode_eq_of_agree hagree).trans h'))
  · intro c bytes h
    obtain ⟨body, hsplit, hread, hflags⟩ := read_of_encode h
    exact ⟨body, hsplit, hread, c.agree_normal, hflags⟩
  · intro c
    obtain ⟨-, -, -, -, -, -, hreserved⟩ := c.flags_bits
    exact ⟨hreserved, flags_of_no_will, c.flags_level_ne⟩

/-- A CONNECT with a user name. -/
def namedConnect : Connect :=
  { protocolLevel := .v311, cleanSession := true, keepAlive := 10, clientId := "c", will := none
    username := some "u", password := none }

/-- The same with an empty user name, and what was the user name as the password. -/
def secretConnect : Connect :=
  { namedConnect with username := some "", password := some "u" }

/-- Their bytes differ in the flags only, which is enough. -/
theorem encode_tells_secretConnect :
    ((Packet.connect namedConnect).encode
        = .ok [16, 16, 0, 4, 77, 81, 84, 84, 4, 0x82, 0, 10, 0, 1, 99, 0, 1, 117] ∧
      (Packet.connect secretConnect).encode
        = .ok [16, 16, 0, 4, 77, 81, 84, 84, 4, 0x42, 0, 10, 0, 1, 99, 0, 1, 117]) ∧
    ¬ namedConnect.Agree secretConnect ∧
    (∃ body, Frame.split? [16, 16, 0, 4, 77, 81, 84, 84, 4, 0x42, 0, 10, 0, 1, 99, 0, 1, 117]
        = .ok (some (⟨0x10, body⟩, [])) ∧
      read.run body = .ok ({ secretConnect with username := none }, []) ∧ body[7]? = some 0x42) ∧
    secretConnect.flags &&& 0x38 = 0 := by
  have hnamed : (Packet.connect namedConnect).body
      = .ok [0, 4, 77, 81, 84, 84, 4, 0x82, 0, 10, 0, 1, 99, 0, 1, 117] := rfl
  have hsecret : (Packet.connect secretConnect).body
      = .ok [0, 4, 77, 81, 84, 84, 4, 0x42, 0, 10, 0, 1, 99, 0, 1, 117] := rfl
  have hbytes : (Packet.connect namedConnect).encode
      = .ok [16, 16, 0, 4, 77, 81, 84, 84, 4, 0x82, 0, 10, 0, 1, 99, 0, 1, 117] :=
    Packet.encode_of_short hnamed (by decide)
  have hbytes' : (Packet.connect secretConnect).encode
      = .ok [16, 16, 0, 4, 77, 81, 84, 84, 4, 0x42, 0, 10, 0, 1, 99, 0, 1, 117] :=
    Packet.encode_of_short hsecret (by decide)
  obtain ⟨body, hsplit, hread, -, hflags⟩ := encode_tells.2.1 secretConnect _ hbytes'
  refine ⟨⟨hbytes, hbytes'⟩, ?_, ⟨body, hsplit, hread, hflags⟩,
    (encode_tells.2.2 secretConnect).2.1 rfl⟩
  rw [← encode_tells.1 namedConnect secretConnect _ _ hbytes hbytes']
  decide

end Connect

end Mqtt
