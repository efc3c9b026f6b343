import Mqtt.Proofs.Client.Released
import Mqtt.Proofs.Topic.Filter

/-!
# `Mqtt.Proofs.Client.Sendable`: requests that are accepted can be written

A packet that cannot be written would stay at the head of the queue and end every
connection. Requests are checked when they are made, by rules on topics; writing checks
by rules of its own. Every request that the first let through passes the second, but for
a PUBLISH that is too long (`Packet.Sendable`).

* `Packet.sendable_of_isValid`: what asks for something valid, or for nothing.
* `Packet.Later.asks`: redelivery changes nothing about what a packet asks for.
* `Core.asked_moves`: nothing gets into the queue and the session but what was asked for.
* `Client.isValid_of_accepted`: nothing is accepted in a run that is not valid.
* `Client.sendable_of_accept`, `Client.sendable_of_wrote`: what is queued for a valid
  request, and what is handed to the transport in a run.
* `Client.accepted_sendable`: what follows for every state, and for runs.
-/

set_option autoImplicit false

namespace Mqtt

/-- How many bytes the body of the PUBLISH of a message has. -/
def Message.bodySize (m : Message) : Nat :=
  2 + m.topic.utf8ByteSize + (if m.qos = .atMostOnce then 0 else 2) + m.payload.length

namespace Packet

/-- Whether a packet can be written, with one exception: a PUBLISH whose body is too long
fails, and its length is reported. -/
structure Sendable (p : Packet) : Prop where
  written : (∀ m, p = .publish m → m.bodySize ≤ 268435455) → ∃ bytes, p.encode = .ok bytes
  tooBig : ∀ m, p = .publish m → 268435455 < m.bodySize →
    p.encode = .error (.packetTooBig m.bodySize)

/-- Whether what a packet asks for, if it is a request, has a property. -/
def Asks (P : Request → Prop) (p : Packet) : Prop :=
  ∀ r, p.request? = some r → P r

/-- What is no request asks for nothing. -/
theorem asks_of_not_isRequest {P : Request → Prop} {p : Packet} (h : p.isRequest = false) :
    p.Asks P := by
  intro r hr
  cases p with
  | publish | subscribe | unsubscribe => cases h
  | _ => cases hr

/-- A packet that carries a request asks for this request. -/
theorem asks_iff {P : Request → Prop} {p : Packet} {r : Request} (h : p.request? = some r) :
    p.Asks P ↔ P r := by
  constructor
  · intro hp
    exact hp r h
  · intro hr r' hr'
    exact Option.some.inj (h.symm.trans hr') ▸ hr

/-- No request is a CONNECT. -/
theorem kind_ne_of_isRequest {p : Packet} (h : p.isRequest = true) : p.kind ≠ .connect := by
  intro hkind
  cases p with
  | connect => cases h
  | _ => cases hkind

/-! ### What is valid can be written -/

/-- A packet is no PUBLISH and can be written if its fields can. -/
theorem sendable_of_fields {p : Packet} (hkind : p.kind ≠ .publish)
    (h : ∀ f ∈ p.sizedFields, f.fault? = none) : p.Sendable where
  written _ := exists_encode_iff.mpr
    ((fault?_of_kind_ne hkind).trans (List.findSome?_eq_none_iff.mpr h))
  tooBig _ hm := absurd (congrArg kind hm) hkind

/-- A PUBLISH can be written if its topic can and it is not too long. -/
theorem sendable_publish {m : Message} (htopic : (SizedField.text m.topic).fault? = none) :
    (publish m).Sendable := by
  have hfault : (publish m).fault? =
      if 268435455 < m.bodySize then some (.packetTooBig m.bodySize) else none := by
    rw [fault?, bodySize_publish, sizedFields, List.findSome?_singleton, htopic]
    rfl
  constructor
  · intro hshort
    rw [exists_encode_iff, hfault, if_neg (Nat.not_lt.mpr (hshort m rfl))]
  · intro m' h hbig
    obtain rfl := publish.inj h
    rw [encode_eq_error_iff, hfault, if_pos hbig]

/-- The packets of valid requests can be written, and so can all that are no requests,
but for CONNECT. -/
theorem sendable_of_isValid {p : Packet} (hkind : p.kind ≠ .connect)
    (hvalid : p.Asks fun r => Client.isValid r = true) : p.Sendable := by
  -- Names and filters alike are checked for what can be sent as a topic.
  have htopic : ∀ {topic : String} {rest : Bool}, (Topic.isSendable topic && rest) = true →
      (SizedField.text topic).fault? = none :=
    fun h => Topic.fault?_of_isSendable (Bool.and_eq_true_iff.mp h).1
  cases p with
  | connect => exact absurd rfl hkind
  | publish m => exact sendable_publish (htopic (hvalid _ rfl))
  | subscribe r | unsubscribe r =>
      exact sendable_of_fields (by simp [kind])
        (List.forall_mem_singleton.mpr (htopic (hvalid _ rfl)))
  | _ => exact sendable_of_fields (by simp [kind]) (by simp [sizedFields])

/-! ### Later forms of a packet -/

/-- The forms in which a packet is written, now and on later connections: what the
redelivery of a session makes of it, any number of times. -/
inductive Later (p : Packet) : Packet → Prop where
  | first : Later p p
  | redelivered {e : Exchange} (s : Session) (h : Later p e.packet) : Later p (s.redelivery e)

/-- Redelivery asks for the same, or writes PUBREL. -/
theorem asks_redelivery {P : Request → Prop} (s : Session) {e : Exchange}
    (h : e.packet.Asks P) : (s.redelivery e).Asks P := by
  unfold Session.redelivery
  split
  · next m hpacket =>
      split
      · exact asks_of_not_isRequest rfl
      · rw [hpacket] at h
        exact h
  · exact h

/-- What is written again for an exchange is a CONNECT only if its packet was. -/
theorem kind_redelivery_ne (s : Session) {e : Exchange} (h : e.packet.kind ≠ .connect) :
    (s.redelivery e).kind ≠ .connect := by
  unfold Session.redelivery
  split
  · split <;> simp [kind]
  · exact h

/-- So do all later forms. -/
theorem Later.asks {P : Request → Prop} {p q : Packet} (h : p.Later q)
    (hkind : p.kind ≠ .connect) (hp : p.Asks P) : q.kind ≠ .connect ∧ q.Asks P := by
  induction h with
  | first => exact ⟨hkind, hp⟩
  | redelivered s _ ih => exact ⟨kind_redelivery_ne s ih.1, asks_redelivery s ih.2⟩

end Packet

/-- The client decides on nothing that counts for whether a request is valid. -/
theorem Request.isValid_bare (r : Request) : Client.isValid r.bare = Client.isValid r := by
  cases r <;> rfl

/-! ### What a core is asked for -/

namespace Core

/-- Whether all that a core is asked for, is about to write or tracks has a property. -/
structure Asked (P : Request → Prop) (core : Core) : Prop where
  inbox : ∀ r ∈ core.inbox, P r.bare
  pending : ∀ p ∈ core.pending, p.Asks P
  sent : ∀ e ∈ core.session.sent, e.packet.Asks P

variable {P : Request → Prop} {connecting : Bool}

/-- A core that has no more to do with requests. -/
theorem Asked.of_subset {core core' : Core} (h : core.Asked P) (hinbox : core'.inbox = core.inbox)
    (hpending : ∀ p ∈ core'.pending, p ∈ core.pending ∨ p.isRequest = false)
    (hsent : core'.session.sent ⊆ core.session.sent) : core'.Asked P where
  inbox := hinbox ▸ h.inbox
  pending p hp := (hpending p hp).elim (h.pending p) Packet.asks_of_not_isRequest
  sent e he := h.sent e (hsent he)

/-- A move asks for nothing but what is accepted. -/
theorem asked_move {core core' : Core} {events : List Event} (h : core.Asked P)
    (hwell : core.session.WellFormed) (haccepted : ∀ r, .accepted r ∈ events → P r.bare)
    (hmove : Move connecting core events core') : core'.Asked P := by
  cases hmove.effect hwell with
  | aside hbooks haside =>
      have hinbox : core'.inbox = core.inbox := congrArg Books.inbox hbooks
      have hpending : core'.pending = core.pending := congrArg Books.pending hbooks
      have hsession : core'.session = core.session := congrArg Books.session hbooks
      exact h.of_subset hinbox (fun p hp => Or.inl (hpending ▸ hp)) (hsession ▸ List.Subset.refl _)
  -- Only here does a request come in from outside, and it was accepted.
  | ask _ r =>
      refine ⟨List.forall_mem_append.mpr ⟨h.inbox, ?_⟩, h.pending, h.sent⟩
      exact List.forall_mem_singleton.mpr (haccepted r List.mem_cons_self)
  | @queue _ _ r inbox p ids hinbox hrequest hfresh hid =>
      have hasked := h.inbox
      rw [hinbox, List.forall_mem_cons] at hasked
      refine ⟨hasked.2, List.forall_mem_append.mpr ⟨h.pending, ?_⟩, h.sent⟩
      exact List.forall_mem_singleton.mpr ((Packet.asks_iff hrequest).mpr hasked.1)
  | track hpending =>
      refine ⟨h.inbox, fun q hq => h.pending q ((sublist_cut hpending).subset hq), ?_⟩
      exact List.forall_mem_append.mpr
        ⟨h.sent, List.forall_mem_singleton.mpr (h.pending _ (mem_cut hpending))⟩
  | drop hpending | refuse hpending =>
      exact h.of_subset rfl (fun q hq => Or.inl ((sublist_cut hpending).subset hq))
        (List.Subset.refl _)
  -- An answer carries no request, and what is completed or released was tracked already.
  | route p handler hrouting =>
      have hinbox := (core.route_frame p).1
      cases hrouting with
      | answer answers hanswers hsent hpending =>
          refine h.of_subset hinbox ?_ (hsent ▸ List.Subset.refl _)
          intro q hq
          rw [hpending] at hq
          exact (List.mem_append.mp hq).imp_right (hanswers q)
      | complete front back e n hfound hsent hpending =>
          refine h.of_subset hinbox (fun q hq => Or.inl (hpending ▸ hq)) ?_
          rw [hsent]
          exact (sublist_cut hfound).subset
      | release front back e packetId hfound hkey hsent hpending =>
          refine h.of_subset hinbox ?_ ?_
          · intro q hq
            rw [hpending] at hq
            refine (List.mem_append.mp hq).imp_right fun hrel => ?_
            rw [List.mem_singleton.mp hrel]
            rfl
          · rw [hsent, hfound]
            exact ((List.perm_append_singleton e _).trans List.perm_middle.symm).subset
  | forget now =>
      exact h.of_subset rfl (fun q hq => Or.inl (List.mem_filter.mp hq).1)
        (List.nil_subset _)
  -- A request that is written again has another duplicate flag at most.
  | redeliver now =>
      refine ⟨h.inbox, List.forall_mem_append.mpr ⟨?_, ?_⟩, ?_⟩
      · intro q hq
        obtain ⟨e, he, rfl⟩ := List.mem_map.mp hq
        exact Packet.asks_redelivery _ (h.sent e he)
      · exact fun q hq => h.pending q (List.mem_filter.mp hq).1
      · exact fun e he => h.sent e (List.mem_filter.mp he).1

/-- So does a chain of moves, and nothing else is handed to the transport. -/
theorem asked_moves {start core : Core} {log : List Event} (h : start.Asked P)
    (hwell : start.session.WellFormed) (hmoves : Moves connecting start log core)
    (haccepted : ∀ r, .accepted r ∈ log → P r.bare) :
    core.Asked P ∧ ∀ p failure, .wrote p failure ∈ log → p.Asks P := by
  induction hmoves with
  | refl => exact ⟨h, by simp⟩
  | snoc hmoves hmove ih =>
      obtain ⟨hasked, hwrote⟩ := ih fun r hr => haccepted r (List.mem_append_left _ hr)
      have hwell' := wellFormed_moves hwell hmoves
      refine ⟨asked_move hasked hwell' (fun r hr => haccepted r (List.mem_append_right _ hr))
        hmove, ?_⟩
      intro p failure hmem
      rcases List.mem_append.mp hmem with hmem | hmem
      · exact hwrote p failure hmem
      · -- A request comes from the queue.
        cases hrequest : p.isRequest with
        | true => exact hasked.pending p (pending_of_wrote hwell' hmove hmem hrequest)
        | false => exact Packet.asks_of_not_isRequest hrequest

end Core

namespace Client

/-! ### What is accepted -/

/-- Only who asks has a request accepted. -/
theorem Beat.eq_request_of_accepted {a : Action} {s s' : Standing} {core core' : Core}
    {events : List Event} (h : Beat a s core events s' core') (hwell : core.session.WellFormed)
    {r : Request} (hmem : .accepted r ∈ events) : a = .request r := by
  cases h with
  | quiet | wake | park | stop => cases hmem
  | ask _ r' =>
      obtain rfl : r = r' := by simpa using hmem
      rfl
  | @queue _ _ _ r' inbox hinbox =>
      obtain ⟨p, ids, haccept, -⟩ := Core.accept_cases { core with inbox } r'
      rw [haccept] at hmem
      simp at hmem
  | write hpending =>
      rcases List.mem_cons.mp hmem with hmem | hmem
      · cases hmem
      · obtain ⟨reason, hmem⟩ := Core.eq_untracked_of_noteWritten hmem
        cases hmem
  | miss | fail | ping | pingFail | leave | finish => simp at hmem
  | route _ p handler =>
      rw [Core.route_events hwell] at hmem
      simp at hmem
  -- What a client does on its own account accepts nothing.
  | attempt link hfailed => cases hfailed.isOwn _ hmem
  | connect _ link now =>
      rcases List.mem_append.mp hmem with hmem | hmem
      · cases core.isOwn_greeting _ hmem
      · obtain ⟨forgotten, hresume⟩ := Core.resume_events { core with link } now
        rw [hresume] at hmem
        simp at hmem

/-- A request is accepted because it was asked for. -/
theorem Beats.eq_request_of_accepted {a : Action} {s s' : Standing} {core core' : Core}
    {log : List Event} (h : Beats (· = a) s core log s' core') (hwell : core.session.WellFormed)
    {r : Request} (hmem : .accepted r ∈ log) : a = .request r := by
  induction h with
  | refl => cases hmem
  | snoc hbeats ha hbeat ih =>
      rcases List.mem_append.mp hmem with hmem | hmem
      · exact ih hmem
      · rw [← ha]
        exact hbeat.eq_request_of_accepted (Core.wellFormed_moves hwell hbeats.moves) hmem

/-- Nothing is accepted in a run that is not valid. -/
theorem isValid_of_accepted {c : Client} {s : Standing} {core : Core} (hat : c.At s core)
    (hwell : core.session.WellFormed) (as : List Action) {r : Request}
    (hmem : .accepted r ∈ (c.run as).2) : isValid r = true := by
  induction as generalizing c s core with
  | nil => cases hmem
  | cons a as ih =>
      obtain ⟨s', core', hbeats, hat'⟩ := beats_step (P := (· = a)) rfl hat
      rcases List.mem_append.mp hmem with hmem | hmem
      · obtain rfl := hbeats.eq_request_of_accepted hwell hmem
        refine Decidable.byContradiction fun hinvalid => ?_
        have hrefused : (c.request r).2.1 = [] := by
          rw [request, if_neg hinvalid]
        cases (hrefused ▸ hmem : Event.accepted r ∈ [])
      · exact ih hat' (Core.wellFormed_moves hwell hbeats.moves) hmem

/-! ### What is accepted can be written -/

/-- A client accepts valid requests only. -/
theorem isValid_of_request {c : Client} {r : Request} (h : (c.request r).2.2 = true) :
    isValid r = true := by
  refine Decidable.byContradiction fun hinvalid => ?_
  rw [request, if_neg hinvalid] at h
  cases h

/-- The packet of a valid request can be written in all of its forms. -/
theorem sendable_of_accept {r : Request} (hvalid : isValid r = true) (core : Core) : ∃ p,
    (core.accept r).2 = [.queued p] ∧ (core.accept r).1.pending = core.pending ++ [p] ∧
      p.request? = some r.bare ∧ ∀ q, p.Later q → q.Sendable := by
  obtain ⟨p, ids, haccept, hisRequest, hrequest, -⟩ := core.accept_cases r
  rw [haccept]
  refine ⟨p, rfl, rfl, hrequest, ?_⟩
  intro q hlater
  have hasks : p.Asks fun r => isValid r = true := by
    rw [Packet.asks_iff hrequest, Request.isValid_bare]
    exact hvalid
  obtain ⟨hkind, hasks'⟩ := hlater.asks (Packet.kind_ne_of_isRequest hisRequest) hasks
  exact Packet.sendable_of_isValid hkind hasks'

/-- What a client hands to the transport in a run can be written, but for CONNECT and for
requests of the session that it was made with. -/
theorem sendable_of_wrote {settings : Settings} {session : Session} {link : Link}
    {as : List Action} (hwell : session.WellFormed) {q : Packet} {failure : Option ClientError}
    (hwrote : .wrote q failure ∈ ((new settings session link).run as).2)
    (hkind : q.kind ≠ .connect) :
    q.Sendable ∨
      ∃ e ∈ session.sent, ∃ r, q.request? = some r ∧ e.packet.request? = some r := by
  have hat : (new settings session link).At .resting (Core.new settings session link 0) :=
    .resting (Or.inl rfl)
  obtain ⟨s, core, hbeats, -⟩ := beats_run as hat
  -- What is asked for is valid, or was asked for in the session.
  let Known : Request → Prop := fun r =>
    isValid r = true ∨ ∃ e ∈ session.sent, e.packet.request? = some r
  have hstart : (Core.new settings session link 0).Asked Known :=
    ⟨by simp [Core.new], by simp [Core.new], fun e he r hr => Or.inr ⟨e, he, hr⟩⟩
  have haccepted : ∀ r, .accepted r ∈ ((new settings session link).run as).2 →
      Known r.bare := by
    intro r hr
    refine Or.inl ?_
    rw [Request.isValid_bare]
    exact isValid_of_accepted hat hwell as hr
  have hasks := (Core.asked_moves hstart hwell hbeats.moves haccepted).2 q failure hwrote
  cases hrequest : q.request? with
  | none =>
      refine Or.inl (Packet.sendable_of_isValid hkind ?_)
      intro r hr
      cases hrequest.symm.trans hr
  | some r =>
      refine ((Packet.asks_iff hrequest).mp hasks).imp ?_ ?_
      · intro hvalid
        exact Packet.sendable_of_isValid hkind ((Packet.asks_iff hrequest).mpr hvalid)
      · rintro ⟨e, he, hsame⟩
        exact ⟨e, he, r, rfl, hsame⟩

/-- The packet of a request that is accepted is put at the end of the queue, whatever the
state of the core is, and can be written in all of its forms unless it is a PUBLISH that
is too long. In every run the same holds of all that is handed to the transport, but for
CONNECT and for requests of the session that the client was made with. -/
theorem accepted_sendable :
    (∀ (c : Client) (r : Request), (c.request r).2.2 = true → ∀ core : Core, ∃ p,
      (core.accept r).2 = [.queued p] ∧ (core.accept r).1.pending = core.pending ++ [p] ∧
      p.request? = some r.bare ∧ ∀ q, p.Later q → q.Sendable) ∧
    ∀ (settings : Settings) (session : Session) (link : Link) (as : List Action),
      session.WellFormed → ∀ q failure,
      .wrote q failure ∈ ((new settings session link).run as).2 → q.kind ≠ .connect →
      q.Sendable ∨
        ∃ e ∈ session.sent, ∃ r, q.request? = some r ∧ e.packet.request? = some r := by
  constructor
  · intro c r haccepted core
    exact sendable_of_accept (isValid_of_request haccepted) core
  · intro settings session link as hwell q failure hwrote hkind
    exact sendable_of_wrote hwell hwrote hkind

/-- A message with a payload of so many zeros. -/
def zeros (n : Nat) : Message :=
  ⟨"a", List.replicate n 0, .atLeastOnce, false, false, 0⟩

/-- A message that is too long is accepted, and cannot be written the first time nor again;
a short one can. -/
theorem accepted_sendable_zeros :
    ((new default .empty default).request (.publish (zeros 268435456))).2.2 = true ∧
    ((Core.new default .empty default 0).accept (.publish (zeros 268435456))).2
      = [.queued (.publish { zeros 268435456 with packetId := 1 })] ∧
    (Packet.publish { zeros 268435456 with packetId := 1 }).encode
      = .error (.packetTooBig 268435461) ∧
    (Packet.publish { zeros 268435456 with packetId := 1, duplicate := true }).encode
      = .error (.packetTooBig 268435461) ∧
    Session.empty.WellFormed ∧
    .wrote (.publish { zeros 1 with packetId := 1 }) none ∈
      ((new default .empty default).run [.expect [.ok (.connAck false .accepted)], .connect none,
        .request (.publish (zeros 1)), .turn]).2 ∧
    ∃ bytes, (Packet.publish { zeros 1 with packetId := 1 }).encode = .ok bytes := by
  have haccepted : ((new default .empty default).request (.publish (zeros 268435456))).2.2 = true :=
    rfl
  have hsize : ∀ m : Message, m.topic = "a" → m.qos = .atLeastOnce →
      m.payload = List.replicate 268435456 0 → m.bodySize = 268435461 := by
    intro m htopic hqos hpayload
    rw [Message.bodySize, htopic, hqos, hpayload, List.length_replicate]
    rfl
  obtain ⟨p, hqueued, -, -, hsendable⟩ :=
    accepted_sendable.1 _ _ haccepted (Core.new default .empty default 0)
  obtain rfl : Packet.publish { zeros 268435456 with packetId := 1 } = p :=
    Event.queued.inj (List.cons.inj hqueued).1
  have hwrote : .wrote (.publish { zeros 1 with packetId := 1 }) none ∈
      ((new default .empty default).run [.expect [.ok (.connAck false .accepted)], .connect none,
        .request (.publish (zeros 1)), .turn]).2 := by
    decide
  refine ⟨haccepted, hqueued, ?_, ?_, Session.wellFormed_empty, hwrote, ?_⟩
  · have hbig := (hsendable _ .first).tooBig _ rfl
    rw [hsize _ rfl rfl rfl] at hbig
    exact hbig (by decide)
  · have hlater : Packet.Later (.publish { zeros 268435456 with packetId := 1 })
        (.publish { zeros 268435456 with packetId := 1, duplicate := true }) :=
      .redelivered (e := ⟨⟨.publish, 1⟩, _⟩) .empty .first
    have hbig := (hsendable _ hlater).tooBig _ rfl
    rw [hsize _ rfl rfl rfl] at hbig
    exact hbig (by decide)
  · have hrun := accepted_sendable.2 default .empty default _ Session.wellFormed_empty _ _ hwrote
    rcases hrun (by simp [Packet.kind]) with hshort | ⟨e, he, -⟩
    · refine hshort.written fun m hm => ?_
      obtain rfl := Packet.publish.inj hm
      decide
    · cases he

end Client

end Mqtt
