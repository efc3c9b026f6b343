import Mqtt.Proofs.Client.Ping

/-!
# `Mqtt.Proofs.Client.Silence`: how long a connection can be silent

A loop that looks at its keep-alive often enough does not let a connection rest: it
pings when nothing came in, and gives up when the PINGREQ is not answered. What comes
in counts as much as what is written.

* `Client.connection_active`: while a connection lasts and every write succeeds, a
  packet was written or came in within the last keep-alive interval.
* `Client.listener_silent`: a client to which packets come all the time writes nothing,
  for longer than any multiple of the interval that a server may wait for.
-/

set_option autoImplicit false

namespace Mqtt

namespace Log

/-- The times at which something passed between client and server: a connection was
accepted, a packet came in, or one was written. -/
def active (log : List (Nat × Event)) : List Nat :=
  log.filterMap fun
    | (time, .established _) | (time, .received _) | (time, .wrote _ none) => some time
    | _ => none

/-- Logs in a row are active when each is. -/
theorem active_append (log later : List (Nat × Event)) :
    active (log ++ later) = active log ++ active later :=
  List.filterMap_append

/-- Hearing from the server is activity. -/
theorem mem_active_of_heard {time : Nat} {log : List (Nat × Event)} (h : time ∈ heard log) :
    time ∈ active log := by
  obtain ⟨⟨time', e⟩, hmem, hsome⟩ := List.mem_filterMap.mp h
  refine List.mem_filterMap.mpr ⟨(time', e), hmem, ?_⟩
  cases e <;> first | exact hsome | cases hsome

/-- So is a PINGREQ that was written. -/
theorem mem_active_of_unanswered {time : Nat} {log : List (Nat × Event)}
    (h : time ∈ unanswered log) : time ∈ active log := by
  induction log using List.reverseRecOn with
  | nil => cases h
  | append_singleton log stamped ih =>
      rw [unanswered_append] at h
      rw [active_append]
      have hawait : time ∈ await (unanswered log) stamped := h
      unfold await at hawait
      split at hawait
      · cases hawait
      · cases hawait
      · rcases List.mem_append.mp hawait with hbefore | hnow
        · exact List.mem_append_left _ (ih hbefore)
        · exact List.mem_append_right _ hnow
      · exact List.mem_append_left _ (ih hawait)

/-- When no PINGREQ is due and none has expired, something happened on the connection
within half the interval. -/
theorem active_of_idle {interval now start : Nat} {earlier log : List (Nat × Event)}
    {forgotten : Option Session} (hinterval : 0 < interval)
    (hdue : ¬ PingDue interval now (earlier ++ [(start, .established forgotten)] ++ log))
    (hexpired : ¬ PingExpired interval now (earlier ++ [(start, .established forgotten)] ++ log)) :
    ∃ time ∈ start :: active log, 2 * (now - time) ≤ interval := by
  have hunanswered : unanswered (earlier ++ [(start, .established forgotten)] ++ log)
      = unanswered log := by
    rw [unanswered_append, unanswered_append]
    rfl
  cases hwaiting : unanswered log with
  | nil =>
      -- No PINGREQ is due, so the client heard from the server not long ago.
      have hheard : heard (earlier ++ [(start, .established forgotten)] ++ log)
          = heard earlier ++ (start :: heard log) := by
        rw [heard_append, heard_append, List.append_assoc]
        rfl
      obtain ⟨last, hlast, hmem⟩ : ∃ last, (heard earlier ++ (start :: heard log)).getLast?
          = some last ∧ last ∈ start :: heard log := by
        refine ⟨(start :: heard log).getLast (List.cons_ne_nil _ _), ?_, List.getLast_mem _⟩
        rw [List.getLast?_append, List.getLast?_eq_some_getLast (List.cons_ne_nil _ _)]
        rfl
      refine ⟨last, ?_, Nat.not_lt.mp fun hlong =>
        hdue ⟨hinterval, hunanswered.trans hwaiting, last, hheard ▸ hlast, hlong⟩⟩
      rcases List.mem_cons.mp hmem with rfl | hmem
      · exact List.mem_cons_self
      · exact List.mem_cons_of_mem _ (mem_active_of_heard hmem)
  | cons time waiting =>
      -- A PINGREQ that is waited for was written not long ago.
      have hmem : time ∈ unanswered log := hwaiting ▸ List.mem_cons_self
      exact ⟨time, List.mem_cons_of_mem _ (mem_active_of_unanswered hmem),
        Nat.not_lt.mp fun hlong => hexpired ⟨hinterval, time, hunanswered ▸ hmem, hlong⟩⟩

end Log

namespace Client

variable {c : Client}

/-- The times at which the loop of a client looks at its keep-alive. -/
def lookTimes (c : Client) : List Action → List Nat
  | [] => []
  | .turn :: as =>
      if c.taken?.isSome then c.now :: c.turn.1.lookTimes as else c.turn.1.lookTimes as
  | a :: as => (c.step a).1.lookTimes as

/-- At each of them it takes something in. -/
theorem exists_look {time : Nat} {as : List Action} (h : time ∈ c.lookTimes as) :
    ∃ front back core taken, as = front ++ .turn :: back ∧
      (c.run front).1.taken? = some (core, taken) ∧ (c.run front).1.now = time := by
  induction as generalizing c with
  | nil => cases h
  | cons a as ih =>
      -- It is the first action, or one after it.
      have hlater : time ∈ (c.step a).1.lookTimes as →
          ∃ front back core taken, a :: as = front ++ .turn :: back ∧
            (c.run front).1.taken? = some (core, taken) ∧ (c.run front).1.now = time := by
        intro hmem
        obtain ⟨front, back, core, taken, rfl, htaken, htime⟩ := ih hmem
        exact ⟨a :: front, back, core, taken, rfl, htaken, htime⟩
      cases a with
      | turn =>
          rw [lookTimes] at h
          split at h
          · next hsome =>
              rcases List.mem_cons.mp h with rfl | hmem
              · obtain ⟨⟨core, taken⟩, htaken⟩ := Option.isSome_iff_exists.mp hsome
                exact ⟨[], as, core, taken, rfl, htaken, rfl⟩
              · exact hlater hmem
          · exact hlater h
      | _ => exact hlater h

/-- The log of a run that goes on. -/
theorem stamped_append (c : Client) (as later : List Action) :
    c.stamped (as ++ later) = c.stamped as ++ (c.run as).1.stamped later := by
  induction as generalizing c with
  | nil => rfl
  | cons a as ih =>
      show Log.stamp c.now (c.step a).2.1 ++ (c.step a).1.stamped (as ++ later) = _
      rw [ih, ← List.append_assoc]
      rfl

/-- A connection that is made starts the log of its connection. -/
theorem stamped_connect {opening : Option ClientError}
    (hmade : c.establishes (.connect opening) = true) :
    (∃ log forgotten, c.stamped [.connect opening]
      = log ++ [(c.now, .established forgotten)]) ∧
    (c.step (.connect opening)).1.now = c.now := by
  have h := c.joined opening
  rw [establishes, Bool.and_eq_true, Bool.not_eq_true', Option.isNone_iff_eq_none] at hmade
  obtain ⟨hdown, hok⟩ := hmade
  show (∃ log forgotten, Log.stamp c.now (c.connect opening).2.1 ++ [] = _) ∧
    (c.connect opening).1.now = c.now
  generalize c.connect opening = result at h hok
  obtain ⟨c', events, failure⟩ := result
  obtain rfl : failure = none := hok
  cases h with
  | already hconnected => cases hconnected.symm.trans hdown
  -- The greeting comes first, and nothing of it is activity.
  | @made core link =>
      obtain ⟨forgotten, hresume⟩ := Core.resume_events { core with link } c.now
      refine ⟨⟨Log.stamp c.now core.greeting, forgotten, ?_⟩, rfl⟩
      rw [List.append_nil, hresume]
      exact Log.stamp_append c.now core.greeting [.established forgotten]

/-- When a loop looks at its keep-alive, something happened on its connection within half
the interval, or happens then, unless it gives up or a PINGREQ cannot be written. -/
theorem active_of_look {interval start : Nat} {earlier log : List (Nat × Event)} {core : Core}
    {taken : List Event} {forgotten : Option Session}
    (hpaced : c.Paced interval (earlier ++ [(start, .established forgotten)] ++ log))
    (hinterval : 0 < interval) (htaken : c.taken? = some (core, taken))
    (hlasts : .closed ∉ c.turn.2) (hwrites : ∀ p failure, .wrote p (some failure) ∉ c.turn.2) :
    ∃ time ∈ start :: Log.active (log ++ Log.stamp c.now c.turn.2),
      2 * (c.now - time) ≤ interval := by
  have hturn : c.turn.2 = taken ++ (c.endTurn core).2 := congrArg Prod.snd (turn_of_taken htaken)
  have hheard : Log.heard (earlier ++ [(start, .established forgotten)] ++ log) ≠ [] := by
    rw [Log.heard_append, Log.heard_append]
    simp [Log.heard]
  obtain ⟨hping, hgiveUp⟩ := hpaced.poll (fun _ => hheard) htaken
  rw [hturn, Log.stamp_append, ← List.append_assoc]
  rcases looked_cases c core with
    ⟨hnothing, -⟩ | ⟨-, hend⟩ | ⟨-, failure, rest, hend, -⟩
  · -- Neither is a PINGREQ due nor has one expired.
    have hdue : ¬ Log.PingDue interval c.now
        (earlier ++ [(start, .established forgotten)] ++ log ++ Log.stamp c.now taken) := by
      rw [← hping, hnothing]
      simp
    have hexpired : ¬ Log.PingExpired interval c.now
        (earlier ++ [(start, .established forgotten)] ++ log ++ Log.stamp c.now taken) := by
      rw [← hgiveUp, hnothing]
      simp
    rw [List.append_assoc _ log] at hdue hexpired
    obtain ⟨time, hmem, htime⟩ := Log.active_of_idle hinterval hdue hexpired
    refine ⟨time, ?_, htime⟩
    rw [Log.active_append]
    exact List.mem_append_left (Log.active (Log.stamp c.now (c.endTurn core).2)) hmem
  -- It gives up, and the connection is closed.
  · rw [hturn, hend] at hlasts
    exact absurd (by simp) hlasts
  · -- A PINGREQ is written.
    obtain rfl : failure = none := by
      cases failure with
      | none => rfl
      | some reason =>
          refine absurd ?_ (hwrites .pingReq reason)
          rw [hturn, hend]
          simp
    refine ⟨c.now, List.mem_cons_of_mem _ ?_, by omega⟩
    rw [Log.active_append, hend]
    exact List.mem_append_right _ (by simp [Log.active, Log.stamp])

/-- How long a connection can be silent. A client connects, and the connection lasts. Every
packet that is handed to the transport is written at once. A keep-alive is asked for, and
at the time in question the loop looked at it, or was connected, less than half the
interval ago. Then less than the interval has passed since something was written or came
in on the connection, whatever came in and whenever. The hypothesis on the session holds
of an empty one, and of every session that a client leaves. -/
theorem connection_active (settings : Settings) {s : Session} (link : Link)
    (before later : List Action) (opening : Option ClientError) (hs : s.WellFormed)
    (hmade : ((new settings s link).run before).1.establishes (.connect opening) = true)
    {c : Client} (hc : ((new settings s link).run (before ++ [.connect opening])).1 = c)
    (hlasts : .closed ∉ (c.run later).2)
    (hwrites : ∀ p failure, .wrote p (some failure) ∉ (c.run later).2)
    (hlooks : ∃ time ∈ c.now :: c.lookTimes later,
      2 * ((c.run later).1.now - time) < settings.keepAliveInterval) :
    ∃ time ∈ c.now :: Log.active (c.stamped later),
      (c.run later).1.now - time < settings.keepAliveInterval := by
  obtain ⟨looked, hlooked, hrecent⟩ := hlooks
  rcases List.mem_cons.mp hlooked with rfl | hlooked
  · exact ⟨c.now, List.mem_cons_self, by omega⟩
  obtain ⟨front, back, core, taken, rfl, htaken, rfl⟩ := exists_look hlooked
  -- The log up to then starts with what came before the connection.
  obtain ⟨⟨opened, forgotten, hconnect⟩, hnow⟩ := stamped_connect hmade
  have hsame : c.now = ((new settings s link).run before).1.now := by
    rw [← hc, run_append]
    exact hnow
  have hpaced := paced_run (paced_new settings link hs) (before ++ [.connect opening] ++ front)
  rw [List.nil_append, run_append, stamped_append, stamped_append, hconnect, hc, ← hsame,
    ← List.append_assoc] at hpaced
  dsimp only at hpaced
  have hrun : (c.run (front ++ .turn :: back)).2 = (c.run front).2 ++ ((c.run front).1.turn.2
      ++ ((c.run front).1.turn.1.run back).2) := by
    rw [run_append]
    rfl
  rw [hrun] at hlasts hwrites
  obtain ⟨time, htime, hactive⟩ := active_of_look hpaced (Nat.zero_lt_of_lt hrecent) htaken
    (fun hclosed => hlasts (by simp [hclosed]))
    (fun p failure hwrote => hwrites p failure (by simp [hwrote]))
  refine ⟨time, ?_, by omega⟩
  rw [stamped_append]
  rcases List.mem_cons.mp htime with rfl | htime
  · exact List.mem_cons_self
  · refine List.mem_cons_of_mem _ ?_
    show time ∈ Log.active (c.stamped front ++ (Log.stamp (c.run front).1.now
      (c.run front).1.turn.2 ++ (c.run front).1.turn.1.stamped back))
    rw [← List.append_assoc, Log.active_append]
    exact List.mem_append_left _ htime

/-- The server accepts a connection. -/
def acceptingRun : List Action :=
  [.expect [.ok (.connAck false .accepted)]]

/-- Nothing is there to be read after nine tenths of a second, twice. -/
def waitingTurns : List Action :=
  [.turn, .elapse 900000000, .arrive [.error .timeout], .turn, .turn, .elapse 900000000,
    .arrive [.error .timeout], .turn]

/-- The second time a PINGREQ is written. -/
theorem connection_active_waitingTurns :
    ∃ c : Client,
      ((new pingingSettings .empty default).run (acceptingRun ++ [.connect none])).1 = c ∧
      c.lookTimes waitingTurns = [900000000, 1800000000] ∧
      Log.active (c.stamped waitingTurns) = [1800000000] ∧
      ∃ time ∈ c.now :: Log.active (c.stamped waitingTurns),
        (c.run waitingTurns).1.now - time < 2000000000 := by
  refine ⟨_, rfl, by decide, by decide, ?_⟩
  have hwrites : ∀ e ∈ (((new pingingSettings .empty default).run
      (acceptingRun ++ [.connect none])).1.run waitingTurns).2, e = .wrote .pingReq none := by
    decide
  refine connection_active pingingSettings default acceptingRun waitingTurns none
    Session.wellFormed_empty (by decide) rfl (by decide) ?_ ⟨1800000000, by decide, by decide⟩
  intro p failure hwrote
  cases hwrites _ hwrote

/-- A message of level 0 comes after every nine tenths of a second. -/
def listeningTurns : List Action :=
  .turn :: (List.replicate 4 [.elapse 900000000,
    .arrive [.ok (.publish ⟨"a", [1], .atMostOnce, false, false, 0⟩)], .turn, .turn]).flatten

/-- A client with a keep-alive of two seconds only listens. It looks at its keep-alive
after every message, and its connection lasts, but it writes nothing at all for more than
three seconds. -/
theorem listener_silent :
    ((new pingingSettings .empty default).run acceptingRun).1.establishes (.connect none) = true ∧
    (((new pingingSettings .empty default).run (acceptingRun ++ [.connect none])).1.lookTimes
      listeningTurns = [900000000, 1800000000, 2700000000, 3600000000]) ∧
    (((new pingingSettings .empty default).run (acceptingRun ++ [.connect none])).1.run
      listeningTurns).1.loop.isRunning = true ∧
    (((new pingingSettings .empty default).run (acceptingRun ++ [.connect none])).1.run
      listeningTurns).1.now = 3600000000 ∧
    Log.handed (((new pingingSettings .empty default).run
      (acceptingRun ++ [.connect none])).1.run listeningTurns).2 = [] ∧
    3 * pingingSettings.keepAliveInterval < 2 * 3600000000 := by
  decide

end Client

end Mqtt
