import LaunchDesk.Proofs.Workroom.Memory
import LaunchDesk.Proofs.Workroom.Pauses

/-!
# Limits

The overseer asks for a stop of everything once for each of two limits, in the first trade that
leaves the balance at its floor and in the first finished run that makes enough of them. The ceiling
for positions may be reached many times: each time the intake is paused, and it is started again
before it can be paused once more.
-/

namespace LaunchDesk.Workroom

variable {w : Workroom} {max : Option Nat} {limits : Limits} {balance : Decimal}
variable {before moves : List Move} {move : Move} {o p : Overseer} {fill : Fill}

/-! ## Stops for everyone -/

/-- What the overseer asks for in a move, save for pauses. -/
theorem news_spec {m : Ledger} (h : w.Manned) (hr : Remembers limits balance before w o)
    (hmove : move.Plain) (hm : ledger balance (before ++ [move]) = .ok m) :
    (w.news move).Nodup ∧ (∀ r ∈ w.news move, r ∈ Overseer.ownRequests) ∧
      (.all .minWalletBalance ∈ w.news move ↔
        First (TradesToFloor limits balance) before move) ∧
      (.all .maxFullTrades ∈ w.news move ↔
        First (CompletesEnough limits balance) before move) := by
  rcases plain_cases hmove with hevent | ⟨bot, fill, rfl⟩ | ⟨bot, outcome, rfl⟩
  · obtain ⟨hfloor, henough, -⟩ := moments_of_quiet limits balance before hevent
    rw [(quiet_move h hmove hevent).1]
    exact ⟨List.nodup_nil, List.forall_mem_nil _,
      iff_of_false List.not_mem_nil fun hfirst => hfloor hfirst.1,
      iff_of_false List.not_mem_nil fun hfirst => henough hfirst.1⟩
  · obtain ⟨p, hp⟩ := count_of_move hr hm
    obtain ⟨hnodup, hown, -, hfloor, henough⟩ := Control.asksAfterTrade_spec p fill.side
    rw [(trade_move h hr.here hp bot).1]
    refine ⟨hnodup, hown, hfloor.trans (stopsForBalance_iff hr hp bot), iff_of_false henough ?_⟩
    rintro ⟨⟨_, _, _, ⟨⟩, _⟩, -⟩
  · have hsated := stopsForTrades_iff hr bot outcome
    rw [(cycle_move h hr.here bot outcome).1, ← hsated]
    have hfloor : ¬First (TradesToFloor limits balance) before (.publish (.cycle bot outcome)) := by
      rintro ⟨⟨_, _, _, ⟨⟩, _⟩, -⟩
    cases { o with completedTrades := o.completedTrades + 1 }.stopsForTrades with
    | true => exact ⟨by decide, by decide, iff_of_false (by decide) hfloor, by decide⟩
    | false => exact ⟨by decide, by decide, iff_of_false (by decide) hfloor, by decide⟩

/-- A recorder is told of a request once if `P` ever holds, in the first move in which it does, and
never otherwise. -/
structure SentOnce (max : Option Nat) (limits : Limits) (balance : Decimal) (r : StopRequest)
    (P : List Move → Move → Prop) (moves : List Move) : Prop where
  moment : ∀ before move later, moves = before ++ move :: later →
    (r ∈ (work max limits balance before).news move ↔ First P before move)
  once : Sometime P moves → (Desk.requests (work max limits balance moves).desk.notes).count r = 1
  never : ¬Sometime P moves → r ∉ Desk.requests (work max limits balance moves).desk.notes

theorem count_of_moments {r : StopRequest} {P : List Move → Move → Prop}
    (hnodup : ∀ before move later, moves = before ++ move :: later →
      ((work max limits balance before).news move).Nodup)
    (hmoment : ∀ before move later, moves = before ++ move :: later →
      (r ∈ (work max limits balance before).news move ↔ First P before move)) :
    (Sometime P moves →
      (Desk.requests (work max limits balance moves).desk.notes).count r = 1) ∧
    (¬Sometime P moves → r ∉ Desk.requests (work max limits balance moves).desk.notes) := by
  induction moves using List.reverseRecOn with
  | nil => exact ⟨fun h => absurd h not_sometime_nil, fun _ => nofun⟩
  | append_singleton moves move ih =>
    obtain ⟨honce, hnever⟩ := ih (fun b m l hb => hnodup b m (l ++ [move]) (by simp [hb]))
      fun b m l hb => hmoment b m (l ++ [move]) (by simp [hb])
    have hnow := hmoment moves move [] rfl
    have hnews := requests_after_move (manned_work moves) move (w := work max limits balance moves)
    rw [work_append, sometime_snoc, List.foldl_cons, List.foldl_nil, hnews, List.count_append,
      List.mem_append]
    -- Once `P` has held no move tells of `r`; until then the last move decides.
    by_cases hearlier : Sometime P moves
    · have hquiet : r ∉ (work max limits balance moves).news move :=
        fun hr => (hnow.mp hr).2 hearlier
      exact ⟨fun _ => by rw [honce hearlier, List.count_eq_zero.mpr hquiet],
        fun h => absurd (.inl hearlier) h⟩
    · have hbefore := hnever hearlier
      constructor
      · rintro (h | hP)
        · exact absurd h hearlier
        · have hmem := hnow.mpr ⟨hP, hearlier⟩
          rw [List.count_eq_zero.mpr hbefore, (hnodup moves move [] rfl).count, if_pos hmem]
      · rintro hP (hr | hr)
        · exact hbefore hr
        · exact hP (.inr (hnow.mp hr).1)

/-! ## Pauses and starts -/

/-- The overseer remembers that it has paused the intake. -/
def IsPaused (w : Workroom) : Prop :=
  ∃ o, w.desk.overseer = some o ∧ o.pausedForPositions = true

theorem isPaused_iff (ho : w.desk.overseer = some o) :
    w.IsPaused ↔ o.pausedForPositions = true := by
  unfold IsPaused
  rw [ho]
  simp

theorem pauses_trade (h : w.Manned) (ho : w.desk.overseer = some o) (hcount : o.count fill = .ok p)
    (bot : BotId) :
    (w.Pauses (.publish (.trade bot fill)) ↔ p.pauses fill.side = true) ∧
      (w.Restarts (.publish (.trade bot fill)) ↔ p.resumes = true) := by
  constructor
  · rw [Pauses, (trade_move h ho hcount bot).1]
    exact (Control.asksAfterTrade_spec p fill.side).2.2.1
  · have hnext := Overseer.onTrade_eq o bot fill
    have hmem : Overseer.Reaction.startIntake ∈ p.tradeReactions bot fill.side ↔
        p.resumes = true := by
      unfold Overseer.tradeReactions
      cases p.pauses fill.side <;> cases p.resumes <;> cases p.stopsForBalance <;> simp
    rw [hcount] at hnext
    rw [← hmem]
    constructor
    · rintro ⟨o', _, _, next, ho', ⟨⟩, hnext', hstart⟩
      obtain rfl := Option.some.inj (ho.symm.trans ho')
      obtain rfl := Except.ok.inj (hnext.symm.trans hnext')
      exact hstart
    · exact fun hstart => ⟨o, bot, fill, _, ho, rfl, hnext, hstart⟩

theorem isPaused_else (balance : Decimal) (before : List Move) (h : w.Manned)
    (ho : w.desk.overseer = some o) (hmove : move.Plain)
    (htrade : ∀ bot fill, move ≠ .publish (.trade bot fill)) :
    ¬w.Pauses move ∧ ¬w.Restarts move ∧ (∀ side P Q, ¬Trades side P Q balance before move) ∧
      ((w.after move).Calm → ((w.after move).IsPaused ↔ w.IsPaused)) := by
  have hrestarts : ¬w.Restarts move := by
    rintro ⟨_, bot, fill, _, _, rfl, _⟩
    exact htrade bot fill rfl
  have htrades : ∀ side P Q, ¬Trades side P Q balance before move := by
    rintro side P Q ⟨bot, fill, _, _, rfl, _⟩
    exact htrade bot fill rfl
  rcases plain_cases hmove with hevent | ⟨bot, fill, rfl⟩ | ⟨bot, outcome, rfl⟩
  · obtain ⟨hnews, hsame⟩ := quiet_move h hmove hevent
    refine ⟨?_, hrestarts, htrades, fun _ => ?_⟩
    · rw [Pauses, hnews]
      exact List.not_mem_nil
    · rw [IsPaused, hsame, IsPaused]
  · exact absurd rfl (htrade bot fill)
  · obtain ⟨hnews, hhere⟩ := cycle_move h ho bot outcome
    refine ⟨?_, hrestarts, htrades, fun hcalm => ?_⟩
    · rw [Pauses, hnews]
      split <;> decide
    · have hscoped := ((calm_after h _).mp hcalm).2
      -- As long as all is calm the cycle has not stopped everything, and the pause is untouched.
      rw [hnews] at hscoped
      split at hscoped
      · exact absurd (hscoped _ (List.mem_singleton_self _)) (by decide)
      · next hstops =>
        rw [if_neg hstops] at hhere
        rw [isPaused_iff hhere, isPaused_iff ho]

/-- How a move changes whether the overseer remembers a pause, until everything is stopped. -/
theorem isPaused_step {m : Ledger} (h : w.Manned) (hr : Remembers limits balance before w o)
    (hmove : move.Plain) (hm : ledger balance (before ++ [move]) = .ok m)
    (hpositive : ∀ n, limits.maxOpenPositions = some n → 1 ≤ n.toNat) (hcalm : w.Calm) :
    (w.Pauses move ↔ ReachesCeiling limits balance before move) ∧
      (w.Restarts move ↔ LeavesCeiling limits balance before move) ∧
      (w.Pauses move → ¬w.IsPaused) ∧ (w.Restarts move → w.IsPaused ∧ ¬w.Pauses move) ∧
      ((w.after move).Calm →
        ((w.after move).IsPaused ↔ w.Pauses move ∨ w.IsPaused ∧ ¬w.Restarts move)) := by
  -- Only a trade changes what is remembered; whether it reaches or leaves the ceiling decides how.
  by_cases htrade : ∃ bot fill, move = .publish (.trade bot fill)
  · obtain ⟨bot, fill, rfl⟩ := htrade
    have hfree : o.stopped = false := hr.stopped.mpr hcalm
    have hpaused := hr.paused hpositive hfree
    obtain ⟨p, hp⟩ := count_of_move hr hm
    obtain ⟨hpauses, hrestarts⟩ := pauses_trade h hr.here hp bot
    have hkept := (Overseer.count_spec hp).2.2.1
    rw [hpauses, hrestarts, isPaused_iff hr.here, ← hkept]
    refine ⟨pauses_iff hr hp bot hpaused, resumes_iff hr hp bot hpaused hfree, ?_, ?_, ?_⟩
    · intro h
      simpa [Overseer.pauses] using (Bool.and_eq_true_iff.mp h).2
    · intro h
      have hceiling := Overseer.atCeiling_of_resumes h
      simp only [Overseer.resumes, Bool.and_eq_true] at h
      exact ⟨h.1.1, fun hp => absurd (Overseer.atCeiling_of_pauses hp) (by simp [hceiling])⟩
    · intro hafter
      obtain ⟨hnews, hhere⟩ := trade_move h hr.here hp bot
      have hscoped := ((calm_after h _).mp hafter).2
      rw [hnews] at hscoped
      have hstops : p.stopsForBalance = false := by
        refine eq_false_of_ne_true fun hstops => ?_
        have := hscoped (.all .minWalletBalance) (by simp [Control.asksAfterTrade, hstops])
        cases this
      rw [hstops, if_neg Bool.false_ne_true] at hhere
      rw [isPaused_iff hhere, Overseer.afterTrade]
      simp
  · obtain ⟨hpauses, hrestarts, htrades, hsame⟩ := isPaused_else balance before h hr.here hmove
      fun bot fill heq => htrade ⟨bot, fill, heq⟩
    exact ⟨iff_of_false hpauses (htrades _ _ _), iff_of_false hrestarts (htrades _ _ _),
      fun h => absurd h hpauses, fun h => absurd h hrestarts,
      fun hafter => by simp [hsame hafter, hpauses, hrestarts]⟩

def PausesAt (max : Option Nat) (limits : Limits) (balance : Decimal) (before : List Move)
    (move : Move) : Prop :=
  (work max limits balance before).Pauses move

def RestartsAt (max : Option Nat) (limits : Limits) (balance : Decimal) (before : List Move)
    (move : Move) : Prop :=
  (work max limits balance before).Restarts move

/-- Until everything is stopped, the buys that reach the ceiling pause the intake and the sells that
leave it start the intake, in turn. -/
structure Alternates (max : Option Nat) (limits : Limits) (balance : Decimal) (moves : List Move) :
    Prop where
  pauses : ∀ before move later, moves = before ++ move :: later →
    (work max limits balance before).Calm →
    (PausesAt max limits balance before move ↔ ReachesCeiling limits balance before move)
  restarts : ∀ before move later, moves = before ++ move :: later →
    (work max limits balance before).Calm →
    (RestartsAt max limits balance before move ↔ LeavesCeiling limits balance before move)
  pause_first : ∀ before move later, moves = before ++ move :: later →
    (work max limits balance before).Calm → RestartsAt max limits balance before move →
    Sometime (PausesAt max limits balance) before
  restart_between : ∀ before move between next later,
    moves = before ++ move :: between ++ next :: later →
    (work max limits balance (before ++ move :: between)).Calm →
    PausesAt max limits balance before move →
    PausesAt max limits balance (before ++ move :: between) next →
    Sometime (fun b m => RestartsAt max limits balance (before ++ move :: b) m) between
  pause_between : ∀ before move between next later,
    moves = before ++ move :: between ++ next :: later →
    (work max limits balance (before ++ move :: between)).Calm →
    RestartsAt max limits balance before move →
    RestartsAt max limits balance (before ++ move :: between) next →
    Sometime (fun b m => PausesAt max limits balance (before ++ move :: b) m) between
  /-- The feed is asked to attach an intake that does not listen. -/
  listens : ∀ before bot fill later, moves = before ++ .publish (.trade bot fill) :: later →
    let w := work max limits balance before
    w.desk.intake.listening = false →
    (w.desk.intake.feed.listens <
        (w.after (.publish (.trade bot fill))).desk.intake.feed.listens ↔
      RestartsAt max limits balance before (.publish (.trade bot fill)))

theorem work_snoc (before : List Move) (move : Move) :
    work max limits balance (before ++ [move]) = (work max limits balance before).after move :=
  work_append before [move]

theorem calm_of_append {later : List Move}
    (hcalm : (work max limits balance (before ++ later)).Calm) :
    (work max limits balance before).Calm :=
  calm_of_foldl (manned_work before) (work_append before later ▸ hcalm)

theorem ledger_of_append {l : Ledger} {later : List Move}
    (h : ledger balance (before ++ later) = .ok l) : ∃ k, ledger balance before = .ok k := by
  induction later using List.reverseRecOn generalizing l with
  | nil => exact ⟨l, List.append_nil before ▸ h⟩
  | append_singleton later move ih =>
    rw [← List.append_assoc] at h
    obtain ⟨k, hk⟩ := ledger_before h
    exact ih hk

section Run

variable {total : Ledger} (hmoves : ∀ move ∈ moves, move.Plain)
variable (htotal : ledger balance moves = .ok total)
include hmoves htotal

theorem remembers_at {later : List Move} (heq : moves = before ++ move :: later)
    (max : Option Nat) :
    move.Plain ∧ (∃ m, ledger balance (before ++ [move]) = .ok m) ∧
      ∃ o, Remembers limits balance before (work max limits balance before) o := by
  subst heq
  obtain ⟨k, hk⟩ := ledger_of_append htotal
  refine ⟨hmoves move (by simp), ?_,
    remembers_work max (fun m hm => hmoves m (List.mem_append_left _ hm)) hk⟩
  rw [List.append_cons] at htotal
  exact ledger_of_append htotal

theorem news_at {later : List Move} (limits : Limits) (heq : moves = before ++ move :: later)
    (max : Option Nat) :
    ((work max limits balance before).news move).Nodup ∧
      (∀ r ∈ (work max limits balance before).news move, r ∈ Overseer.ownRequests) ∧
      (.all .minWalletBalance ∈ (work max limits balance before).news move ↔
        First (TradesToFloor limits balance) before move) ∧
      (.all .maxFullTrades ∈ (work max limits balance before).news move ↔
        First (CompletesEnough limits balance) before move) := by
  obtain ⟨hmove, ⟨m, hm⟩, o, hr⟩ := remembers_at hmoves htotal heq max
  exact news_spec (manned_work before) hr hmove hm

section Ceiling

variable (hpositive : ∀ n, limits.maxOpenPositions = some n → 1 ≤ n.toNat)
include hpositive

theorem isPaused_at {later : List Move} (heq : moves = before ++ move :: later)
    (hcalm : (work max limits balance before).Calm) :
    (PausesAt max limits balance before move ↔ ReachesCeiling limits balance before move) ∧
      (RestartsAt max limits balance before move ↔ LeavesCeiling limits balance before move) ∧
      (PausesAt max limits balance before move → ¬(work max limits balance before).IsPaused) ∧
      (RestartsAt max limits balance before move → (work max limits balance before).IsPaused ∧
        ¬PausesAt max limits balance before move) ∧
      ((work max limits balance (before ++ [move])).Calm →
        ((work max limits balance (before ++ [move])).IsPaused ↔
          PausesAt max limits balance before move ∨
            (work max limits balance before).IsPaused ∧
              ¬RestartsAt max limits balance before move)) := by
  obtain ⟨hmove, ⟨m, hm⟩, o, hr⟩ := remembers_at hmoves htotal heq max
  rw [work_snoc]
  exact isPaused_step (manned_work before) hr hmove hm hpositive hcalm

theorem pauses_between {between later : List Move} (heq : moves = before ++ between ++ later)
    (hcalm : (work max limits balance (before ++ between)).Calm)
    (hstart : ¬(work max limits balance before).IsPaused)
    (hend : (work max limits balance (before ++ between)).IsPaused) :
    Sometime (fun b m => PausesAt max limits balance (before ++ b) m) between := by
  -- The first move after which the overseer remembers a pause.
  obtain ⟨a, x, b, rfl, ha, hx⟩ :=
    begins_between (S := fun ms => (work max limits balance ms).IsPaused) hstart hend
  refine ⟨a, x, b, rfl, ?_⟩
  have hsplit : before ++ (a ++ x :: b) = before ++ a ++ [x] ++ b := by simp
  rw [hsplit] at hcalm
  have hnow := calm_of_append hcalm
  have hmoment : moves = (before ++ a) ++ x :: (b ++ later) := by simp [heq]
  have hstep :=
    (isPaused_at hmoves htotal hpositive hmoment (calm_of_append hnow)).2.2.2.2 hnow
  exact (hstep.mp hx).resolve_right fun h => ha h.1

theorem restarts_between {between later : List Move} (heq : moves = before ++ between ++ later)
    (hcalm : (work max limits balance (before ++ between)).Calm)
    (hstart : (work max limits balance before).IsPaused)
    (hend : ¬(work max limits balance (before ++ between)).IsPaused) :
    Sometime (fun b m => RestartsAt max limits balance (before ++ b) m) between := by
  obtain ⟨a, x, b, rfl, ha, hx⟩ :=
    begins_between (S := fun ms => ¬(work max limits balance ms).IsPaused) (not_not_intro hstart)
      hend
  refine ⟨a, x, b, rfl, ?_⟩
  have hsplit : before ++ (a ++ x :: b) = before ++ a ++ [x] ++ b := by simp
  rw [hsplit] at hcalm
  have hnow := calm_of_append hcalm
  have hmoment : moves = (before ++ a) ++ x :: (b ++ later) := by simp [heq]
  have hstep :=
    (isPaused_at hmoves htotal hpositive hmoment (calm_of_append hnow)).2.2.2.2 hnow
  exact by_contra fun h => hx (hstep.mpr (.inr ⟨not_not.mp ha, h⟩))

theorem alternates : Alternates max limits balance moves where
  pauses before move later heq hcalm := (isPaused_at hmoves htotal hpositive heq hcalm).1
  restarts before move later heq hcalm := (isPaused_at hmoves htotal hpositive heq hcalm).2.1
  pause_first before move later heq hcalm hrestarts := by
    have hend := ((isPaused_at hmoves htotal hpositive heq hcalm).2.2.2.1 hrestarts).1
    have hstart : moves = [] ++ before ++ move :: later := heq
    refine pauses_between hmoves htotal hpositive hstart hcalm ?_ hend
    rintro ⟨o, ⟨⟩, hpaused⟩
    cases hpaused
  restart_between before move between next later heq hcalm hmove hnext := by
    have hnext' := (isPaused_at hmoves htotal hpositive heq hcalm).2.2.1 hnext
    have hsplit : before ++ move :: between = before ++ [move] ++ between := by simp
    rw [hsplit] at hcalm hnext'
    have hnow := calm_of_append hcalm
    have hmoment : moves = before ++ move :: (between ++ next :: later) := by simp [heq]
    have hstep :=
      (isPaused_at hmoves htotal hpositive hmoment (calm_of_append hnow)).2.2.2.2 hnow
    have hstretch : moves = (before ++ [move]) ++ between ++ next :: later := by simp [heq]
    -- The overseer has to forget the first pause before the second one, and it forgets by a start.
    have hbetween := restarts_between hmoves htotal hpositive hstretch hcalm
      (hstep.mpr (.inl hmove)) hnext'
    simpa using hbetween
  pause_between before move between next later heq hcalm hmove hnext := by
    have hnext' := ((isPaused_at hmoves htotal hpositive heq hcalm).2.2.2.1 hnext).1
    have hsplit : before ++ move :: between = before ++ [move] ++ between := by simp
    rw [hsplit] at hcalm hnext'
    have hnow := calm_of_append hcalm
    have hmoment : moves = before ++ move :: (between ++ next :: later) := by simp [heq]
    obtain ⟨-, -, -, hstarts, hkeeps⟩ :=
      isPaused_at hmoves htotal hpositive hmoment (calm_of_append hnow)
    have hstart : ¬(work max limits balance (before ++ [move])).IsPaused := by
      rw [hkeeps hnow]
      simp [hmove, (hstarts hmove).2]
    have hstretch : moves = (before ++ [move]) ++ between ++ next :: later := by simp [heq]
    have hbetween := pauses_between hmoves htotal hpositive hstretch hcalm hstart hnext'
    simpa using hbetween
  listens := by
    intro before bot fill later heq w hsilent
    have hmanned : w.Manned := manned_work before
    obtain ⟨-, ⟨m, hm⟩, o, hr⟩ := remembers_at hmoves htotal heq max
    obtain ⟨p, hp⟩ := count_of_move hr hm
    have hlistens := Control.listens_after_trade (c := w.desk.control) hr.here hsilent bot fill
    have hcontrol := after_publish hmanned (.trade bot fill)
    rw [Control.Act.ofEvent] at hcontrol
    rw [← hcontrol, hp] at hlistens
    refine hlistens.trans (Iff.trans ?_ (pauses_trade hmanned hr.here hp bot).2.symm)
    simp

end Ceiling

end Run

/-- Each limit of an overseer is enforced in the event that reaches it. Everything is asked to stop
once for the floor of the balance and once for the number of finished runs, whatever else is reached
in the same event or afterwards; and until everything is stopped, the intake is paused by each buy
that reaches the ceiling for positions and started again by each sell that leaves it. -/
theorem limits_are_enforced_once (max : Option Nat) (limits : Limits) (balance : Decimal)
    (moves : List Move) (total : Ledger) (hmoves : ∀ move ∈ moves, move.Plain)
    (htotal : ledger balance moves = .ok total) :
    (∀ before move later, moves = before ++ move :: later →
      ((work max limits balance before).news move).Nodup ∧
        ∀ r ∈ (work max limits balance before).news move, r ∈ Overseer.ownRequests) ∧
    SentOnce max limits balance (.all .minWalletBalance) (TradesToFloor limits balance) moves ∧
    SentOnce max limits balance (.all .maxFullTrades) (CompletesEnough limits balance) moves ∧
    ((∀ n, limits.maxOpenPositions = some n → 1 ≤ n.toNat) →
      Alternates max limits balance moves) := by
  have hnews : ∀ before move later, moves = before ++ move :: later → _ :=
    fun before move later heq => news_at hmoves htotal limits heq max
  have hnodup := fun before move later heq => (hnews before move later heq).1
  have hfloor := fun before move later heq => (hnews before move later heq).2.2.1
  have henough := fun before move later heq => (hnews before move later heq).2.2.2
  obtain ⟨hfloorOnce, hfloorNever⟩ := count_of_moments hnodup hfloor
  obtain ⟨henoughOnce, henoughNever⟩ := count_of_moments hnodup henough
  exact ⟨fun before move later heq =>
      ⟨hnodup before move later heq, (hnews before move later heq).2.1⟩,
    ⟨hfloor, hfloorOnce, hfloorNever⟩, ⟨henough, henoughOnce, henoughNever⟩,
    alternates hmoves htotal⟩

def strictLimits : Limits where
  maxOpenPositions := some 1
  maxFullTrades := some 2
  minWalletBalance := some (.ofSmall 98 0)

def sampleBuy : Move := .publish (.trade default (Run.sampleFill .buy .one))

def sampleSell : Move := .publish (.trade default (Run.sampleFill .sell .one))

def sampleCycle : Move := .publish (.cycle default (.exited ⟨default, "", .stopped, []⟩))

/-- The ceiling is reached twice, and both limits that stop everything are passed by far. -/
def busyMoves : List Move :=
  [.start false, sampleBuy, sampleSell, sampleBuy, sampleBuy, sampleBuy, sampleCycle, sampleCycle,
    sampleCycle]

theorem busy_overseer_stops_twice :
    let w := work (some 2) strictLimits .hundred busyMoves
    (∀ move ∈ busyMoves, move.Plain) ∧
      (Desk.requests w.desk.notes).count (.all .minWalletBalance) = 1 ∧
      (Desk.requests w.desk.notes).count (.all .maxFullTrades) = 1 ∧
      RestartsAt (some 2) strictLimits .hundred [.start false, sampleBuy] sampleSell := by
  intro w
  have hplain : ∀ move ∈ busyMoves, move.Plain := by
    simp [busyMoves, Move.Plain, sampleBuy, sampleSell, sampleCycle]
  obtain ⟨-, hfloor, henough, hceiling⟩ :=
    limits_are_enforced_once (some 2) strictLimits .hundred busyMoves _ hplain rfl
  have hpositive : ∀ n, strictLimits.maxOpenPositions = some n → 1 ≤ n.toNat := by
    rintro n ⟨⟩
    decide
  have hleaves : LeavesCeiling strictLimits .hundred [.start false, sampleBuy] sampleSell :=
    ⟨_, _, _, _, rfl, rfl, rfl, rfl, ⟨1, rfl, by decide +kernel⟩, by
      rintro ⟨n, ⟨⟩, hle⟩
      revert hle
      decide +kernel⟩
  refine ⟨hplain, hfloor.once ?_, henough.once ?_, ?_⟩
  · exact ⟨[.start false, sampleBuy, sampleSell, sampleBuy], sampleBuy, _, rfl, _, _, _, rfl, rfl,
      _, rfl, by decide +kernel⟩
  · exact ⟨[.start false, sampleBuy, sampleSell, sampleBuy, sampleBuy, sampleBuy, sampleCycle],
      sampleCycle, _, rfl, _, _, _, rfl, rfl, _, rfl, by decide +kernel⟩
  · have hcalm : (work (some 2) strictLimits .hundred [.start false, sampleBuy]).Calm := by
      decide +kernel
    exact ((hceiling hpositive).restarts _ _ _ rfl hcalm).mpr hleaves

end LaunchDesk.Workroom
