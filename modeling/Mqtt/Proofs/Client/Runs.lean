import Mqtt.Proofs.Client.Beats

/-!
# `Mqtt.Proofs.Client.Runs`: a run is a chain of moves

* `Client.moves_run`: whatever a client does in a run, the log of the run
  comes from moves of its core.
* `Client.reached_step`: so does what it does in one action, and only
  connecting makes a connection.
* `Client.core?_isSome_run`: unless a handler fails, the core is never lost.
-/

set_option autoImplicit false

namespace Mqtt

/-- Whether an action registers no handler that fails. -/
def Action.isCalm : Action → Bool
  | .on _ h => !h.fails
  | _ => true

namespace Client

/-- Moves of a core led to a client and its log, and the client has the core
that they end with, if it has one. -/
def Reached (connecting : Bool) (core : Core) (result : Client × List Event) : Prop :=
  ∃ core', Core.Moves connecting core result.2 core' ∧
    ∀ last, result.1.loop.core? = some last → last = core'

/-- Whatever a client with a core does comes from moves of the core. -/
theorem reached_step (c : Client) (a : Action) (core : Core)
    (hloop : c.loop.core? = some core) :
    Reached a.isConnect core ((c.step a).1, (c.step a).2.1) := by
  obtain ⟨s, hat⟩ := exists_at hloop
  obtain ⟨s', core', hbeats, hat'⟩ := beats_step (P := (· = a)) rfl hat
  exact ⟨core', hbeats.moves_of_action, fun last hlast => hat'.eq_core hlast⟩

/-- A run goes on from the client that the actions before left. -/
theorem run_append (c : Client) (as later : List Action) :
    c.run (as ++ later)
      = (((c.run as).1.run later).1, (c.run as).2 ++ ((c.run as).1.run later).2) := by
  induction as generalizing c with
  | nil => rfl
  | cons a as ih =>
      show (((c.step a).1.run (as ++ later)).1,
        (c.step a).2.1 ++ ((c.step a).1.run (as ++ later)).2) = _
      rw [ih, ← List.append_assoc]
      rfl

/-- Whatever a client does in a run, its log comes from moves of its core. -/
theorem moves_run (c : Client) (as : List Action) (core : Core)
    (hloop : c.loop.core? = some core) : Reached true core (c.run as) := by
  obtain ⟨s, hat⟩ := exists_at hloop
  obtain ⟨s', core', hbeats, hat'⟩ := beats_run as hat
  exact ⟨core', hbeats.moves, fun last hlast => hat'.eq_core hlast⟩

/-! ### Clients whose handlers do not fail -/

/-- No handler of a client destroys its loop. -/
def Calm (c : Client) : Prop :=
  ∀ n : Notice, c.handlers.survive n = true

/-- One client follows another: it has the same handlers, and unless one of
them fails it has a core. -/
structure Follows (c c' : Client) : Prop where
  handlers : c'.handlers = c.handlers
  core : c.Calm → c'.loop.core?.isSome = true

/-- A calm client that follows another has handlers that do not fail. -/
theorem Follows.calm {c c' : Client} (h : Follows c c') (hcalm : c.Calm) : c'.Calm := by
  intro n
  rw [h.handlers]
  exact hcalm n

/-- The end of a loop leaves its core. -/
theorem follows_finish (c : Client) (core : Core) (ending : Ending) :
    Follows c (c.finish core ending).1 where
  handlers := rfl
  core := by
    intro hcalm
    unfold finish
    dsimp only
    rw [hcalm]
    rfl

/-- So does the end of a turn. -/
theorem follows_endTurn (c : Client) (core : Core) : Follows c (c.endTurn core).1 := by
  unfold endTurn
  split
  · exact ⟨rfl, fun _ => rfl⟩
  · next core₁ events failure heq => exact follows_finish c core₁ (.lost failure)

/-- So does the turn that a packet comes to. -/
theorem follows_receive (c : Client) (core : Core) (p : Packet) :
    Follows c (c.receive core p).1 := by
  unfold receive
  dsimp only
  split
  · exact follows_endTurn c _
  · next notice hnotice =>
      by_cases hsurvive : c.handlers.survive notice = true
      · rw [if_pos hsurvive]
        exact follows_endTurn c _
      · rw [if_neg hsurvive]
        exact ⟨rfl, fun hcalm => absurd (hcalm notice) hsurvive⟩

/-- So does every turn of a client that has a core. -/
theorem follows_turn (c : Client) (hloop : c.loop.core?.isSome = true) :
    Follows c c.turn.1 := by
  unfold turn
  split
  · split
    · exact ⟨rfl, fun _ => rfl⟩
    · next core₁ events failure heq => exact follows_finish c core₁ (.lost failure)
  · unfold wake
    split
    · exact follows_endTurn c _
    · split
      · exact ⟨rfl, fun _ => hloop⟩
      · dsimp only
        split
        · exact follows_receive c _ _
        · split
          · exact follows_endTurn c _
          · exact follows_finish c _ _
  · exact ⟨rfl, fun _ => hloop⟩

/-- So does shutting down. -/
theorem follows_shutDown (c : Client) (graceful : Bool) (hloop : c.loop.core?.isSome = true) :
    Follows c (c.shutDown graceful).1 := by
  have hturn := follows_turn c hloop
  unfold shutDown
  split
  · dsimp only
    split
    · have hfinish := fun core => follows_finish c.turn.1 core (.shutdown graceful)
      exact ⟨(hfinish _).handlers.trans hturn.handlers,
        fun hcalm => (hfinish _).core (hturn.calm hcalm)⟩
    · exact hturn
  · exact follows_finish c _ _
  · exact ⟨rfl, fun _ => hloop⟩

/-- Taking a core back keeps it. -/
theorem core?_collect (c : Client) : c.collect.1.loop.core? = c.loop.core? := by
  unfold collect
  split
  · next heq => rw [heq]; rfl
  · next heq => rw [heq]; rfl
  · rfl

/-- So does connecting. -/
theorem follows_connect (c : Client) (opening : Option ClientError)
    (hloop : c.loop.core?.isSome = true) : Follows c (c.connect opening).1 := by
  unfold connect
  split
  · exact ⟨rfl, fun _ => hloop⟩
  · split
    · split <;> exact ⟨rfl, fun _ => rfl⟩
    · split <;> exact ⟨rfl, fun _ => rfl⟩
    · next heq =>
        rw [heq] at hloop
        cases hloop
    · exact ⟨rfl, fun _ => hloop⟩
    · exact ⟨rfl, fun _ => hloop⟩

/-- A calm client with a core stays one. -/
theorem calm_step (c : Client) (a : Action) (ha : a.isCalm = true) (hcalm : c.Calm)
    (hloop : c.loop.core?.isSome = true) :
    (c.step a).1.Calm ∧ (c.step a).1.loop.core?.isSome = true := by
  have hmap : ∀ f : Core → Core, (c.loop.mapCore f).core?.isSome = true := by
    intro f
    rw [core?_mapCore, Option.isSome_map]
    exact hloop
  have hfollows : ∀ c', Follows c c' → c'.Calm ∧ c'.loop.core?.isSome = true :=
    fun c' h => ⟨h.calm hcalm, h.core hcalm⟩
  cases a with
  | connect opening => exact hfollows _ (follows_connect c opening hloop)
  | disconnect graceful =>
      have h := follows_shutDown c graceful hloop
      refine hfollows _ ⟨?_, ?_⟩
      · refine Eq.trans ?_ h.handlers
        show (c.shutDown graceful).1.collect.1.handlers = _
        unfold collect
        split <;> rfl
      · intro hc
        rw [show (c.step (.disconnect graceful)).1 = (c.shutDown graceful).1.collect.1 from rfl,
          core?_collect]
        exact h.core hc
  | request r =>
      refine hfollows _ ?_
      simp only [step, request]
      split
      · unfold send
        split
        · exact ⟨rfl, fun _ => hloop⟩
        · exact ⟨rfl, fun _ => hmap _⟩
      · exact ⟨rfl, fun _ => hloop⟩
  | on kind h =>
      -- The handler that is new does not fail, and the others did not.
      refine ⟨?_, hloop⟩
      intro n
      by_cases hkind : n.kind = kind
      · simpa [step, on, Handlers.survive, Handlers.register, hkind, Action.isCalm] using ha
      · have hn := hcalm n
        simp only [Handlers.survive] at hn
        simpa [step, on, Handlers.survive, Handlers.register, hkind] using hn
  | turn => exact hfollows _ (follows_turn c hloop)
  | expect incoming => exact hfollows _ ⟨rfl, fun _ => hmap _⟩
  | arrive incoming => exact hfollows _ ⟨rfl, fun _ => hmap _⟩
  | outcomes outcomes => exact hfollows _ ⟨rfl, fun _ => hmap _⟩
  | elapse time => exact hfollows _ ⟨rfl, fun _ => hloop⟩

/-- A calm client with a core stays one while no failing handler is registered. -/
theorem calm_run (c : Client) (as : List Action) (has : as.all Action.isCalm = true)
    (hcalm : c.Calm) (hloop : c.loop.core?.isSome = true) :
    (c.run as).1.Calm ∧ (c.run as).1.loop.core?.isSome = true := by
  induction as generalizing c with
  | nil => exact ⟨hcalm, hloop⟩
  | cons a as ih =>
      rw [List.all_cons, Bool.and_eq_true] at has
      obtain ⟨hcalm', hloop'⟩ := calm_step c a has.1 hcalm hloop
      exact ih (c.step a).1 has.2 hcalm' hloop'

/-- A client in whose run no failing handler is registered keeps its core. -/
theorem core?_isSome_run (c : Client) (as : List Action) (has : as.all Action.isCalm = true)
    (hcalm : c.Calm) (hloop : c.loop.core?.isSome = true) :
    (c.run as).1.loop.core?.isSome = true :=
  (calm_run c as has hcalm hloop).2

/-- A new client has no handlers that could fail. -/
theorem calm_new (settings : Settings) (session : Session) (link : Link) :
    (new settings session link).Calm :=
  fun _ => rfl

end Client

end Mqtt
