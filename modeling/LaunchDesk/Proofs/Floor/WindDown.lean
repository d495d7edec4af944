import LaunchDesk.Proofs.Floor.Stops
import LaunchDesk.Proofs.Run.Cancelled

/-!
# Runs on a cancelled machine

Once a machine is cancelled, its run winds down, and every run that is started on it later leaves at
its first tick. The runs of other machines may go on in between in any way.
-/

namespace LaunchDesk

open Run (Effect)

/-- How a run goes on in one move, if its machine is `cancelled`: it stays as it is, or it gets a
reply. When it has something to tell, an overflow outside may break it off there. -/
structure Player.GoesOn (cancelled : Bool) (p q : Player) : Prop where
  plan : q.trader.plan = p.trader.plan
  machine : q.machine = p.machine
  run : (q.trader.run = p.trader.run ∧ q.seen = p.seen) ∨
    ∃ now reply, (p.trader.run.request? p.trader.plan).any (·.awaits reply) = true ∧
      let next := p.trader.run.resume p.trader.plan cancelled now reply
      q.seen = p.seen ++ Effect.ofReply reply ++
        Run.effects p.trader.plan (q.trader.run, next.2) ∧
      (q.trader.run = next.1 ∨
        Run.announced next.2 ≠ [] ∧ ∃ fault, q.trader.run = next.1.crash fault)

theorem Player.GoesOn.refl (cancelled : Bool) (p : Player) : p.GoesOn cancelled p :=
  ⟨rfl, rfl, .inl ⟨rfl, rfl⟩⟩

namespace Floor

variable {f : Floor} {k m : Nat} {p q : Player} {r : Run} {more : List Effect}

/-! ## One move -/

theorem answered_eq (f : Floor) (k : Nat) (p : Player) (now : Moment) (reply : Reply) :
    let next := p.trader.run.resume p.trader.plan (f.desk.machines p.machine).cancelled now reply
    ∃ run, f.answered k p now reply = { p with
          trader := { p.trader with run := run }
          seen := p.seen ++ Effect.ofReply reply ++ Run.effects p.trader.plan (run, next.2) } ∧
      (run = next.1 ∨ Run.announced next.2 ≠ [] ∧ ∃ fault, run = next.1.crash fault) := by
  intro next
  have htrader := Desk.proceed_trader f.desk k p.trader next
  refine ⟨(f.desk.carryOut next.2).2.elim next.1 next.1.crash, ?_, ?_⟩
  · have hresume : f.desk.resume k p.trader now reply = f.desk.proceed k p.trader next := rfl
    rw [answered, hresume, htrader]
  · cases hfault : (f.desk.carryOut next.2).2 with
    | none => exact .inl rfl
    | some fault =>
      -- Only an event that is published can overflow outside.
      refine .inr ⟨fun hquiet => ?_, fault, rfl⟩
      rw [Desk.carryOut_quiet hquiet] at hfault
      cases hfault

theorem goesOn_answered (f : Floor) (k : Nat) (p : Player) (now : Moment) {reply : Reply}
    (hawaited : (p.trader.run.request? p.trader.plan).any (·.awaits reply) = true) :
    p.GoesOn (f.desk.machines p.machine).cancelled (f.answered k p now reply) := by
  obtain ⟨run, hanswered, hrun⟩ := answered_eq f k p now reply
  rw [hanswered]
  exact ⟨rfl, rfl, .inr ⟨now, reply, hawaited, rfl, hrun⟩⟩

theorem player_reply (hp : f.Works k p) (now : Moment) {reply : Reply}
    (hawaited : (p.trader.run.request? p.trader.plan).any (·.awaits reply) = true) :
    (f.reply k now reply).players[k]? = some (f.answered k p now reply) := by
  obtain ⟨hk, hwork⟩ := hp
  rw [Floor.reply, hk]
  simp only [hwork, hawaited, Bool.and_self, if_true]
  exact List.getElem?_set_self (List.getElem?_eq_some_iff.mp hk).1

theorem player_after (h : f.players[k]? = some p) (move : Move) :
    ∃ q, (f.after move).players[k]? = some q ∧
      p.GoesOn (f.desk.machines p.machine).cancelled q := by
  have hstays : ∀ {players : List Player}, players[k]? = some p → ∃ q, players[k]? = some q ∧
      p.GoesOn (f.desk.machines p.machine).cancelled q := fun hk => ⟨p, hk, .refl _ p⟩
  -- At most one player changes, which may be this one.
  have hset : ∀ {j p'} (q : Player), f.players[j]? = some p' →
      p'.GoesOn (f.desk.machines p'.machine).cancelled q →
      ∃ next, (f.players.set j q)[k]? = some next ∧
        p.GoesOn (f.desk.machines p.machine).cancelled next := by
    intro j p' q hj hgoes
    by_cases hjk : j = k
    · subst hjk
      obtain rfl := Option.some.inj (h.symm.trans hj)
      exact ⟨q, List.getElem?_set_self (List.getElem?_eq_some_iff.mp h).1, hgoes⟩
    · exact hstays ((List.getElem?_set_ne hjk).trans h)
  have hbecomes := becomes_after f move
  generalize f.after move = g at hbecomes ⊢
  cases hbecomes with
  | idle => exact hstays h
  | starts hstart =>
    exact hstays ((List.getElem?_append_left (List.getElem?_eq_some_iff.mp h).1).trans h)
  | replies hp hawaited => exact hset _ hp.1 (goesOn_answered f _ _ _ hawaited)
  | aborts hp => exact hset _ hp.1 ⟨rfl, rfl, .inl ⟨rfl, rfl⟩⟩
  | cancels machine => exact hstays h
  | publishes event => exact hstays h

theorem begun_after (hk : f.players.length ≤ k) {move : Move}
    (h : (f.after move).players[k]? = some q) :
    ∃ now, let begun := Run.start q.trader.plan (f.desk.machines q.machine).cancelled now
      q.trader.run = begun.1 ∧ q.seen = Run.effects q.trader.plan begun := by
  have hnobody : ∀ {players : List Player}, players.length = f.players.length →
      players[k]? ≠ some q := by
    intro players hlength
    rw [List.getElem?_eq_none (hlength ▸ hk)]
    nofun
  have hbecomes := becomes_after f move
  generalize f.after move = g at hbecomes h
  cases hbecomes with
  | idle => exact absurd h (hnobody rfl)
  | @starts machine plan now d t hstart =>
    obtain ⟨htrader, -⟩ := Desk.start?_spec hstart
    rw [List.getElem?_append_right hk] at h
    obtain rfl := List.mem_singleton.mp (List.mem_of_getElem? h)
    rw [htrader]
    exact ⟨now, rfl, rfl⟩
  | replies hp hawaited => exact absurd h (hnobody List.length_set)
  | aborts hp => exact absurd h (hnobody List.length_set)
  | cancels machine => exact absurd h (hnobody rfl)
  | publishes event => exact absurd h (hnobody rfl)

theorem windsDown_goesOn (h : Run.WindsDown p.trader.plan r more p.trader.run)
    (hgoes : p.GoesOn true q) :
    ∃ next, q.seen = p.seen ++ next ∧
      Run.WindsDown p.trader.plan r (more ++ next) q.trader.run := by
  obtain ⟨hrun, hseen⟩ | ⟨now, reply, hreply, hseen, hrun⟩ := hgoes.run
  · rw [hrun, hseen]
    exact ⟨[], (List.append_nil _).symm, by rwa [List.append_nil]⟩
  · refine ⟨_, by rw [hseen, List.append_assoc], ?_⟩
    rw [← List.append_assoc]
    rcases hrun with hrun | ⟨htells, fault, hrun⟩
    · rw [hrun]
      exact h.resume now hreply
    · rw [hrun]
      exact h.crash now fault htells

/-! ## All moves -/

/-- What has become in `g` of the runs of a machine that was cancelled in `f`, and of those that are
started on it later. -/
structure Winding (m : Nat) (f g : Floor) : Prop where
  cancelled : (g.desk.machines m).cancelled = true
  old : ∀ (k : Nat) (p : Player), f.players[k]? = some p → p.machine = m →
    ∃ q more, g.players[k]? = some q ∧ q.trader.plan = p.trader.plan ∧ q.machine = m ∧
      q.seen = p.seen ++ more ∧ Run.WindsDown p.trader.plan p.trader.run more q.trader.run
  new : ∀ (k : Nat) (q : Player), f.players.length ≤ k → g.players[k]? = some q → q.machine = m →
    ∃ startMs, Run.WindsDown q.trader.plan { startMs := startMs, phase := .resting .looking }
      q.seen q.trader.run

theorem Winding.refl (h : (f.desk.machines m).cancelled = true) : Winding m f f where
  cancelled := h
  old k p hp hm := ⟨p, [], hp, rfl, hm, (List.append_nil _).symm, .refl _ _⟩
  new k q hk hq := by
    rw [List.getElem?_eq_none hk] at hq
    cases hq

theorem Winding.after {g : Floor} (h : Winding m f g) (hg : g.Registered) (move : Move) :
    Winding m f (g.after move) where
  cancelled := (cancelled_after hg m move).mpr (.inl h.cancelled)
  old k p hp hm := by
    obtain ⟨q, more, hq, hplan, hqm, hseen, hwinds⟩ := h.old k p hp hm
    obtain ⟨q', hq', hgoes⟩ := player_after hq move
    rw [hqm, h.cancelled] at hgoes
    rw [← hplan] at hwinds
    obtain ⟨next, hnext, hwinds'⟩ := windsDown_goesOn hwinds hgoes
    refine ⟨q', more ++ next, hq', hgoes.plan.trans hplan, hgoes.machine.trans hqm, ?_, ?_⟩
    · rw [hnext, hseen, List.append_assoc]
    · rwa [← hplan]
  new k q hk hq hm := by
    -- The run has been there before the move, or it is started in the move.
    by_cases hold : k < g.players.length
    · obtain ⟨p, hp⟩ : ∃ p, g.players[k]? = some p := ⟨_, List.getElem?_eq_getElem hold⟩
      obtain ⟨q', hq', hgoes⟩ := player_after hp move
      obtain rfl := Option.some.inj (hq.symm.trans hq')
      have hpm : p.machine = m := hgoes.machine.symm.trans hm
      rw [hpm, h.cancelled] at hgoes
      obtain ⟨startMs, hwinds⟩ := h.new k p hk hp hpm
      obtain ⟨next, hnext, hwinds'⟩ := windsDown_goesOn hwinds hgoes
      rw [hgoes.plan, hnext]
      exact ⟨startMs, hwinds'⟩
    · obtain ⟨now, hrun, hseen⟩ := begun_after (Nat.le_of_not_lt hold) hq
      rw [hm, h.cancelled] at hrun hseen
      rw [hrun, hseen]
      exact ⟨now.ms, Run.windsDown_start _ now⟩

theorem winding_play {max : Option Nat} {oversight : Option (Limits × Decimal)}
    {before : List Move} (h : ((play max oversight before).desk.machines m).cancelled = true)
    (later : List Move) :
    Winding m (play max oversight before) (play max oversight (before ++ later)) := by
  induction later using List.reverseRecOn with
  | nil =>
    rw [List.append_nil]
    exact .refl h
  | append_singleton later move ih =>
    rw [← List.append_assoc, play_snoc]
    exact ih.after (registered_play max oversight _) move

/-! ## How the runs end -/

theorem ends_with_reply {history : List Entry} {tick : Nat} {wall : Stamp} {report : Report}
    (hp : f.Works k p) (now : Moment) (answer : Except Fault Unit)
    (hphase : p.trader.run.phase =
      .recording (Run.stoppedOutcome p.trader.plan history tick wall) report) :
    ∃ q, (f.reply k now (.stored answer)).players[k]? = some q ∧
      q.machine = p.machine ∧ q.trader.plan = p.trader.plan ∧ q.trader.run.phase =
        .ended (.ok (Run.stoppedOutcome p.trader.plan history tick wall)) := by
  have hreply : (p.trader.run.request? p.trader.plan).any (·.awaits (.stored answer)) = true := by
    simp only [Run.request?, hphase]
    rfl
  obtain ⟨run, hanswered, hrun⟩ := answered_eq f k p now (.stored answer)
  refine ⟨_, (player_reply hp now hreply).trans (congrArg some hanswered), rfl, rfl, ?_⟩
  have hquiet : ∀ cancelled, Run.announced
      (p.trader.run.resume p.trader.plan cancelled now (.stored answer)).2 = [] := by
    intro cancelled
    simp only [Run.resume, hphase]
    exact Run.announced_storeWarning _ answer
  obtain rfl := hrun.resolve_right fun h => h.1 (hquiet _)
  exact Run.ends_stopped _ now answer hphase

theorem ends_from_rest {stance : Run.Stance} (hp : f.Works k p)
    (hcancelled : (f.desk.machines p.machine).cancelled = true)
    (hphase : p.trader.run.phase = .resting stance) (hstance : stance.isHolding = false)
    (now now' : Moment) (answer : Except Fault Unit) :
    ∃ q, ((f.reply k now .rested).reply k now' (.stored answer)).players[k]? = some q ∧
      q.trader.run.phase = .ended (.ok (Run.stoppedOutcome p.trader.plan p.trader.run.history
        p.trader.run.tick now.wall)) := by
  have hreply : (p.trader.run.request? p.trader.plan).any (·.awaits .rested) = true := by
    simp only [Run.request?, hphase]
    rfl
  obtain ⟨run, hanswered, hrun⟩ := answered_eq f k p now .rested
  have hresume : p.trader.run.resume p.trader.plan true now .rested =
      Run.nextTick p.trader.plan true now p.trader.run stance := by
    simp only [Run.resume, hphase]
  simp only [hcancelled, hresume] at hrun hanswered
  -- The run tells nobody that it leaves, so nothing can crash it.
  obtain rfl := hrun.resolve_right fun h => h.1 (Run.announced_nextTick true)
  obtain ⟨report, -, hrecording, -⟩ := Run.departs p.trader.plan now p.trader.run hstance
  have haborted : p.aborted = false := by simpa using (Bool.and_eq_true_iff.mp hp.2).1
  have hk := (player_reply hp now hreply).trans (congrArg some hanswered)
  have hworks : (f.reply k now .rested).Works k _ :=
    ⟨hk, by simp [Player.isAtWork, haborted, Run.isOver, hrecording]⟩
  obtain ⟨q, hq, -, -, hend⟩ := ends_with_reply hworks now' answer hrecording
  exact ⟨q, hq, hend⟩

theorem ends_from_start (hfree : (f.desk.machines m).running = false)
    (hcancelled : (f.desk.machines m).cancelled = true) (plan : Plan) (now now' : Moment)
    (answer : Except Fault Unit) :
    ∃ q, ((f.start m plan now).reply f.players.length now' (.stored answer)).players[
        f.players.length]? = some q ∧ q.machine = m ∧ q.trader.plan = plan ∧
      q.trader.run.phase = .ended (.ok (Run.stoppedOutcome plan [] 0 now.wall)) := by
  cases hstart : f.desk.start? f.players.length m plan now with
  | none => simp [Desk.start?, hfree] at hstart
  | some begun =>
    obtain ⟨e, t⟩ := begun
    obtain ⟨rfl, hover, -⟩ := Desk.start?_spec hstart
    rw [hcancelled] at hover
    have hplayers : (f.start m plan now).players = f.players ++
        [⟨⟨m, plan, f.desk.bus.next, (Run.start plan true now).1⟩,
          Run.effects plan (Run.start plan true now), false⟩] := by
      simp only [Floor.start, hstart, hcancelled]
    have hworks : (f.start m plan now).Works f.players.length _ :=
      ⟨by rw [hplayers, List.getElem?_concat_length], by simp [Player.isAtWork, hover]⟩
    obtain ⟨report, -, hrecording, -⟩ :=
      Run.departs plan now { startMs := now.ms, phase := .resting .looking }
        (show Run.Stance.looking.isHolding = false from rfl)
    exact ends_with_reply hworks now' answer hrecording

/-! ## Winding down -/

/-- Once a machine is cancelled, whenever that was, it stays so, and its run winds down: it may buy
once more if a look at the market was under way, without a position it only leaves, and with one it
tries to sell whenever it sees the market, until a sell is executed. Given the replies that it waits
for, a run that rests without a position, be it about to leave anyway or not, ends as stopped. A run
that is started on the machine later does so at its first tick and has done nothing else. -/
theorem runs_on_cancelled_machine_wind_down (max : Option Nat)
    (oversight : Option (Limits × Decimal)) (before later : List Move) (m : Nat)
    (hcancelled : ((play max oversight before).desk.machines m).cancelled = true) :
    let f := play max oversight before
    let g := play max oversight (before ++ later)
    (g.desk.machines m).cancelled = true ∧
    (∀ (k : Nat) (p : Player), f.players[k]? = some p → p.machine = m →
      ∃ q more, g.players[k]? = some q ∧ q.seen = p.seen ++ more ∧
        Run.WindsDown p.trader.plan p.trader.run more q.trader.run) ∧
    (∀ k p stance now now' answer, f.Works k p → p.machine = m →
      p.trader.run.phase = .resting stance → stance.isHolding = false →
      ∃ q, ((f.reply k now .rested).reply k now' (.stored answer)).players[k]? = some q ∧
        q.trader.run.phase = .ended (.ok (Run.stoppedOutcome p.trader.plan
          p.trader.run.history p.trader.run.tick now.wall))) ∧
    (∀ (k : Nat) (q : Player), f.players.length ≤ k → g.players[k]? = some q → q.machine = m →
      Run.Leaves q.trader.plan [] 0 q.trader.run q.seen) ∧
    ∀ plan now now' answer, (f.desk.machines m).running = false →
      ∃ q, ((f.start m plan now).reply f.players.length now' (.stored answer)).players[
          f.players.length]? = some q ∧ q.machine = m ∧ q.trader.plan = plan ∧
        q.trader.run.phase = .ended (.ok (Run.stoppedOutcome plan [] 0 now.wall)) := by
  intro f g
  have hwinding : Winding m f g := winding_play hcancelled later
  refine ⟨hwinding.cancelled, ?_, ?_, ?_, ?_⟩
  · intro k p hp hm
    obtain ⟨q, more, hq, -, -, hseen, hwinds⟩ := hwinding.old k p hp hm
    exact ⟨q, more, hq, hseen, hwinds⟩
  · intro k p stance now now' answer hp hm hphase hstance
    rw [← hm] at hcancelled
    exact ends_from_rest hp hcancelled hphase hstance now now' answer
  · intro k q hk hq hm
    obtain ⟨startMs, hwinds⟩ := hwinding.new k q hk hq hm
    exact hwinds.leaves .looking rfl rfl
  · intro plan now now' answer hfree
    exact ends_from_start hfree hcancelled plan now now' answer

/-- A machine is cancelled while its run holds a position; the first sell fails. -/
def stoppedTrade : List Move × List Move :=
  ([.start 0 Run.eagerPlan ⟨0, default⟩,
      .reply 0 ⟨0, default⟩ (.snapshot (.ok default)),
      .reply 0 ⟨5, default⟩ (.order (.ok (Run.sampleFill .buy .one))),
      .reply 0 ⟨5, default⟩ (.stored (.ok ())),
      .cancel 0],
    [.reply 0 ⟨255, default⟩ .rested,
      .reply 0 ⟨255, default⟩ (.snapshot (.ok default)),
      .reply 0 ⟨260, default⟩ (.order (.error (.rpc "503"))),
      .reply 0 ⟨510, default⟩ .rested,
      .reply 0 ⟨510, default⟩ (.snapshot (.ok default)),
      .reply 0 ⟨510, default⟩ (.order (.ok (Run.sampleFill .sell .hundred))),
      .reply 0 ⟨510, default⟩ (.stored (.ok ())),
      .reply 0 ⟨510, default⟩ (.stored (.ok ())),
      .start 0 Run.eagerPlan ⟨600, default⟩,
      .reply 1 ⟨600, default⟩ (.stored (.ok ()))])

theorem stopped_trade_winds_down :
    let g := play none none (stoppedTrade.1 ++ stoppedTrade.2)
    (g.desk.machines 0).cancelled = true ∧
    (∃ q trade, g.players[0]? = some q ∧ q.trader.run.phase = .ended (.ok (.completed trade)) ∧
      ∃ before more position, q.seen = before ++ more ∧ Run.Sold Run.eagerPlan position more) ∧
    ∃ q, g.players[1]? = some q ∧ Run.Leaves Run.eagerPlan [] 0 q.trader.run q.seen := by
  intro g
  obtain ⟨hcancelled, hold, -, hnew, -⟩ :=
    runs_on_cancelled_machine_wind_down none none stoppedTrade.1 stoppedTrade.2 0 rfl
  refine ⟨hcancelled, ?_, ?_⟩
  · have hholding : ∃ p, (play none none stoppedTrade.1).players[0]? = some p ∧ p.machine = 0 ∧
        p.trader.plan = Run.eagerPlan ∧
        ∃ buy position, p.trader.run.phase = .resting (.holding buy position) :=
      ⟨_, rfl, rfl, rfl, _, _, rfl⟩
    obtain ⟨p, hp, hm, hplan, buy, position, hphase⟩ := hholding
    have hended : ∃ q trade, g.players[0]? = some q ∧
        q.trader.run.phase = .ended (.ok (.completed trade)) := ⟨_, _, rfl, rfl⟩
    obtain ⟨q, trade, hq, hend⟩ := hended
    obtain ⟨q', more, hq', hseen, hwinds⟩ := hold 0 p hp hm
    obtain rfl := Option.some.inj (hq.symm.trans hq')
    have hpresses := hwinds.presses buy position hphase
    rw [Run.Presses, hend, hplan] at hpresses
    exact ⟨q, trade, hq, hend, p.seen, more, position, hseen, hpresses⟩
  · have hstarted : ∃ q, g.players[1]? = some q ∧ q.machine = 0 ∧
        q.trader.plan = Run.eagerPlan := ⟨_, rfl, rfl, rfl⟩
    obtain ⟨q, hq, hm, hplan⟩ := hstarted
    have hleaves := hnew 1 q (Nat.le_refl 1) hq hm
    rw [hplan] at hleaves
    exact ⟨q, hq, hleaves⟩

end Floor

end LaunchDesk
