import LaunchDesk.Proofs.Run.Cancelled
import LaunchDesk.Proofs.Session.Funds

/-!
# Stops in a session

A stop request for everyone cancels the runs at work that it does not exclude, and a run that is
cancelled buys in no later tick. It does not reach an opportunity that has been admitted and whose
run has not begun: that run starts as if nobody had asked.
-/

namespace LaunchDesk.Session

variable {s : Session} {k : Nat} {t : Trader} {turn : Turn} {turns : List Turn}

/-- In this turn the run at work in a seat is asked to stop. -/
def Stops (s : Session) (k : Nat) (turn : Turn) : Prop :=
  ∃ t, s.seats[k]? = some (.working t) ∧ ∃ request ∈ s.news turn, ∃ excluded,
    request.scope = .all excluded ∧ t.plan.botId ∉ excluded

/-! ## Who is cancelled -/

theorem lists_iff (h : Enrolled s.desk.bus s.seats) (m : Nat) (bot : BotId) :
    Desk.Lists s.desk.bus.stops m bot ↔
      ∃ t, s.seats[m]? = some (.working t) ∧ t.plan.botId = bot := by
  simp only [Desk.Lists, h.enrols.listed, roll]
  constructor
  · rintro ⟨-, t, hm, -, hbot⟩
    exact ⟨t, hm, hbot⟩
  · rintro ⟨t, hm, hbot⟩
    exact ⟨_, t, hm, rfl, hbot⟩

theorem recorders_enlist (s : Session) (kind : EventKind) :
    Desk.recorders s.desk.bus.stops ≤
      Desk.recorders (s.take (.enlist kind)).desk.bus.stops := by
  cases kind with
  | stop =>
    change _ ≤ Desk.recorders (s.desk.bus.stops ++ [_])
    rw [Desk.recorders, Desk.recorders, List.countP_append]
    exact Nat.le_add_right ..
  | _ => exact Nat.le_refl _

theorem recorders_take (hlive : s.Live) (hturn : turn ≠ .letGo) :
    Desk.recorders s.desk.bus.stops ≤ Desk.recorders (s.take turn).desk.bus.stops := by
  by_cases hlisten : ∃ kind, turn = .enlist kind
  · obtain ⟨kind, rfl⟩ := hlisten
    exact recorders_enlist s kind
  · obtain ⟨requests, hconveys, -⟩ := conveys_take hlive.housed hlive.enrolled
      (fun kind heq => hlisten ⟨kind, heq⟩) hturn
    simp only [Desk.recorders, List.countP_eq_length_filter, hconveys.listeners]
    exact Nat.le_refl _

/-- A turn cancels the runs at work that are asked to stop, and no other ones. -/
theorem cancelled_take (hlive : s.Live) (hheard : 0 < Desk.recorders s.desk.bus.stops)
    (hturn : turn ≠ .letGo) (k : Nat) :
    ((s.take turn).desk.machines k).cancelled = true ↔
      (s.desk.machines k).cancelled = true ∨ s.Stops k turn := by
  by_cases hlisten : ∃ kind, turn = .enlist kind
  · obtain ⟨kind, rfl⟩ := hlisten
    refine (or_iff_left ?_).symm
    rintro ⟨t, -, request, hr, -⟩
    have hnone : s.news (.enlist kind) = [] := List.drop_length
    rw [hnone] at hr
    cases hr
  · obtain ⟨requests, hconveys, -⟩ := conveys_take hlive.housed hlive.enrolled
      (fun kind heq => hlisten ⟨kind, heq⟩) hturn
    have hnews : ∀ request, request ∈ s.news turn ↔ request ∈ requests := by
      intro request
      rw [news, hconveys.told, List.drop_left]
      simp [Nat.ne_of_gt hheard]
    rw [hconveys.cancelled, Desk.Cancels]
    simp only [lists_iff hlive.enrolled, StopRequest.appliesTo_iff]
    refine or_congr_right ⟨?_, ?_⟩
    · rintro ⟨request, hr, bot, ⟨t, hk, rfl⟩, happlies⟩
      exact ⟨t, hk, request, (hnews request).mpr hr, happlies⟩
    · rintro ⟨t, hk, request, hr, happlies⟩
      exact ⟨request, (hnews request).mp hr, _, ⟨t, hk, rfl⟩, happlies⟩

/-! ## Who is never cancelled -/

def Seat.isWaiting : Seat → Bool
  | .waiting _ => true
  | _ => false

/-- What holds at any time of a live session in which somebody listens to stop requests. -/
structure Attended (s : Session) : Prop where
  live : s.Live
  heard : 0 < Desk.recorders s.desk.bus.stops
  /-- Whoever is cancelled has begun. -/
  begun : ∀ k, (s.desk.machines k).cancelled = true →
    ∃ seat, s.seats[k]? = some seat ∧ seat.isWaiting = false

theorem Seat.Goes.isWaiting {cancelled : Bool} {seat next : Seat} (h : seat.Goes cancelled next)
    (hseat : seat.isWaiting = false) : next.isWaiting = false := by
  cases h with
  | stays => exact hseat
  | begins => cases hseat
  | refused => cases hseat
  | goesOn => rfl
  | leaves => rfl
  | vacated => rfl

theorem Attended.take (h : s.Attended) (hturn : turn ≠ .letGo) : (s.take turn).Attended where
  live := h.live.take hturn
  heard := Nat.lt_of_lt_of_le h.heard (recorders_take h.live hturn)
  begun k hcancelled := by
    have hseat : ∃ seat, s.seats[k]? = some seat ∧ seat.isWaiting = false := by
      rcases (cancelled_take h.live h.heard hturn k).mp hcancelled with hold | ⟨t, hk, -⟩
      · exact h.begun k hold
      · exact ⟨_, hk, rfl⟩
    obtain ⟨seat, hk, hwaiting⟩ := hseat
    obtain ⟨next, hnext, hgoes⟩ := goes_take h.live.enrolled hk turn
    exact ⟨next, hnext, hgoes.isWaiting hwaiting⟩

theorem attended_played (setup : Setup) (wallet : SimulatedWallet) {turns : List Turn}
    (h : Turn.letGo ∉ turns) : (played setup wallet (.enlist .stop :: turns)).Attended := by
  induction turns using List.reverseRecOn with
  | nil =>
    refine ⟨live_played setup wallet (by simp), ?_, fun k hcancelled => ?_⟩
    · change 0 < Desk.recorders ((create setup wallet).desk.bus.stops ++ [_])
      simp [Desk.recorders]
    · change ((create setup wallet).desk.machines k).cancelled = true at hcancelled
      rw [create_eq] at hcancelled
      cases hcancelled
  | append_singleton turns turn ih =>
    rw [List.mem_append, not_or] at h
    rw [← List.cons_append, played_snoc]
    exact (ih h.1).take fun heq => h.2 (List.mem_singleton.mpr heq.symm)

/-! ## Runs that are stopped -/

/-- The tick of the run at work. -/
def Seat.tick? : Seat → Option Nat
  | .working t => some t.run.tick
  | _ => none

/-- Somebody is cancelled who was in this tick then, if still at work, and has bought in no later
one. -/
structure Stopped (s : Session) (k : Nat) (tick? : Option Nat) : Prop where
  cancelled : (s.desk.machines k).cancelled = true
  seat : ∃ seat, s.seats[k]? = some seat ∧ seat.isWaiting = false ∧
    ∀ t, seat = .working t → ∃ tick, tick? = some tick ∧ Run.BuysBy tick t.run

theorem Stopped.take {tick? : Option Nat} (h : s.Stopped k tick?) (hs : s.Attended)
    (hturn : turn ≠ .letGo) : (s.take turn).Stopped k tick? where
  cancelled := (cancelled_take hs.live hs.heard hturn k).mpr (.inl h.cancelled)
  seat := by
    obtain ⟨seat, hk, hwaiting, hbuys⟩ := h.seat
    obtain ⟨next, hnext, hgoes⟩ := goes_take hs.live.enrolled hk turn
    refine ⟨next, hnext, hgoes.isWaiting hwaiting, ?_⟩
    rw [h.cancelled] at hgoes
    cases hgoes with
    | stays => exact hbuys
    | begins => cases hwaiting
    | refused => cases hwaiting
    | @goesOn t now reply =>
      rintro u ⟨⟩
      obtain ⟨tick, htick, hby⟩ := hbuys t rfl
      exact ⟨tick, htick, hby.resume now reply⟩
    | leaves => rintro u ⟨⟩
    | vacated => rintro u ⟨⟩

theorem Stopped.foldl {tick? : Option Nat} (h : s.Stopped k tick?) (hs : s.Attended)
    (hturns : Turn.letGo ∉ turns) : (turns.foldl Session.take s).Stopped k tick? := by
  induction turns generalizing s with
  | nil => exact h
  | cons turn turns ih =>
    rw [List.mem_cons, not_or] at hturns
    have hturn : turn ≠ .letGo := Ne.symm hturns.1
    exact ih (h.take hs hturn) (hs.take hturn) hturns.2

/-- A stop request cancels exactly the runs at work that it is about, whoever publishes it, and
never a run that has not begun. Whoever is cancelled remains so, and buys in no tick but the one
that was in progress. -/
theorem stop_reaches_runs_at_work (setup : Setup) (wallet : SimulatedWallet)
    (before later : List Turn) (turn : Turn) (hheld : Turn.letGo ∉ before ++ turn :: later)
    (k : Nat) :
    let s := played setup wallet (.enlist .stop :: before)
    let v := s.take turn
    let w := later.foldl take v
    ((v.desk.machines k).cancelled = true ↔
      (s.desk.machines k).cancelled = true ∨ s.Stops k turn) ∧
    (∀ opportunity, s.seats[k]? = some (.waiting opportunity) →
      (v.desk.machines k).cancelled = false) ∧
    ((v.desk.machines k).cancelled = true → (w.desk.machines k).cancelled = true ∧
      ∀ u order, w.seats[k]? = some (.working u) → u.run.request? u.plan = some (.buy order) →
        ∃ t, v.seats[k]? = some (.working t) ∧ u.run.tick = t.run.tick) := by
  intro s v w
  simp only [List.mem_append, List.mem_cons, not_or] at hheld
  obtain ⟨hbefore, hturn, hlater⟩ := hheld
  have hs : s.Attended := attended_played setup wallet hbefore
  have hv : v.Attended := hs.take (Ne.symm hturn)
  have hcancelled := cancelled_take hs.live hs.heard (Ne.symm hturn) k
  refine ⟨hcancelled, fun opportunity hk => ?_, fun hv' => ?_⟩
  · refine eq_false_of_ne_true fun hv' => ?_
    rcases hcancelled.mp hv' with hold | ⟨t, hworking, -⟩
    · obtain ⟨seat, hseat, hwaiting⟩ := hs.begun k hold
      cases hk.symm.trans hseat
      cases hwaiting
    · exact nomatch hk.symm.trans hworking
  · obtain ⟨seat, hseat, hwaiting⟩ := hv.begun k hv'
    have hstopped : v.Stopped k seat.tick? := by
      refine ⟨hv', seat, hseat, hwaiting, ?_⟩
      rintro t rfl
      exact ⟨t.run.tick, rfl, fun _ => rfl⟩
    obtain ⟨hw, next, hnext, -, hbuys⟩ := hstopped.foldl hv hlater
    refine ⟨hw, fun u order hu horder => ?_⟩
    cases hu.symm.trans hnext
    obtain ⟨tick, htick, hby⟩ := hbuys u rfl
    cases seat with
    | working t =>
      cases htick
      exact ⟨t, hseat, hby (.inl (Run.isBuying_of_request horder))⟩
    | _ => cases htick

/-- One run is at work, and another opportunity has been admitted. -/
def oneAtWork : List Turn :=
  [.move (.start false), .move (.deliver false default), .move (.deliver false default),
    .move (.begin ⟨0, default⟩ 0)]

/-- The run at work is stopped while it looks at the market, and may buy in that tick. -/
theorem run_at_work_is_stopped :
    let s := played sampleSetup ⟨.one⟩ (.enlist .stop :: oneAtWork)
    let v := s.take (.publish (.stop (.all .shutdown)))
    let w := v.take (.move (.reply ⟨7, default⟩ 0 (.snapshot (.ok default))))
    s.Stops 0 (.publish (.stop (.all .shutdown))) ∧ (w.desk.machines 0).cancelled = true ∧
      (v.desk.machines 1).cancelled = false ∧
      ∃ t u order, v.seats[0]? = some (.working t) ∧ w.seats[0]? = some (.working u) ∧
        u.run.request? u.plan = some (.buy order) ∧ u.run.tick = t.run.tick := by
  intro s v w
  have hheld : Turn.letGo ∉ oneAtWork ++ [.publish (.stop (.all .shutdown)),
      .move (.reply ⟨7, default⟩ 0 (.snapshot (.ok default)))] := by simp [oneAtWork]
  obtain ⟨hiff, -, hlater⟩ :=
    stop_reaches_runs_at_work sampleSetup ⟨.one⟩ oneAtWork _ _ hheld 0
  obtain ⟨-, hspared, -⟩ :=
    stop_reaches_runs_at_work sampleSetup ⟨.one⟩ oneAtWork _ _ hheld 1
  have hstops : s.Stops 0 (.publish (.stop (.all .shutdown))) :=
    ⟨_, rfl, .all .shutdown, List.mem_singleton.mpr rfl, [], rfl, List.not_mem_nil⟩
  obtain ⟨hcancelled, hbuys⟩ := hlater (hiff.mpr (.inr hstops))
  have hbuying : ∃ u order, w.seats[0]? = some (.working u) ∧
      u.run.request? u.plan = some (.buy order) := ⟨_, _, rfl, rfl⟩
  obtain ⟨u, order, hu, horder⟩ := hbuying
  obtain ⟨t, ht, htick⟩ := hbuys u order hu horder
  exact ⟨hstops, hcancelled, hspared _ rfl, t, u, order, ht, hu, horder, htick⟩

/-- An opportunity has been admitted when everyone is asked to stop. Its run begins later, looks at
the market and buys. -/
theorem admitted_run_buys_after_stop :
    let s := played sampleSetup ⟨.one⟩
      [.enlist .stop, .move (.start false), .move (.deliver false default)]
    let v := s.take (.publish (.stop (.all .shutdown)))
    let w := (v.take (.move (.begin ⟨0, default⟩ 0))).take
      (.move (.reply ⟨7, default⟩ 0 (.snapshot (.ok default))))
    s.seats[0]? = some (.waiting default) ∧
      s.news (.publish (.stop (.all .shutdown))) = [.all .shutdown] ∧
      (StopRequest.all .shutdown).appliesTo (sampleSetup.names 0) = true ∧
      ∃ t, w.seats[0]? = some (.working t) ∧ (w.desk.machines 0).cancelled = false ∧
        t.run.tick = 1 ∧ t.run.request? t.plan = some (.buy (Run.makeBuyOrder t.plan)) :=
  ⟨rfl, rfl, rfl, _, rfl, rfl, rfl, rfl⟩

end LaunchDesk.Session
