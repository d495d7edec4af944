import LaunchDesk.Paper.Exchange
import LaunchDesk.Proofs.Run.Transitions
import LaunchDesk.Proofs.Run.Words

/-!
# Buys that fail for good

After a buy that has failed for good a run sells whatever there may be, once, and is over with the
answer or when its time is up. Nothing else is ever seen of it, and what the sell brings is not told
to anybody.
-/

open Computability

namespace LaunchDesk

/-! ## Time limits -/

/-- How long it takes to place an order under a time limit, and what comes of it. -/
abbrev LimitedWait : Type := SellOrder → Nat → Nat × Reply

/-- The wait is over by the limit: with the answer to the order, or because the time is up. It says
nothing about the order itself, which may never be answered. -/
structure LimitedWait.IsTimeout (wait : LimitedWait) : Prop where
  inTime : ∀ order limit, (wait order limit).1 ≤ limit
  answers : ∀ order limit,
    (wait order limit).2 = .expired ∨ ∃ answer, (wait order limit).2 = .order answer

theorem LimitedWait.IsTimeout.awaits {wait : LimitedWait} (h : wait.IsTimeout) (order : SellOrder)
    (limit : Nat) : (Request.salvage order limit).awaits (wait order limit).2 = true := by
  rcases h.answers order limit with h | ⟨answer, h⟩
  · rw [h]
    rfl
  · rw [h]
    rfl

/-- How long a paper exchange takes for the salvage of a token, and what arrives of the answer. -/
def Paper.Exchange.salvageWait (x y : Exchange) (mint : String) : LimitedWait :=
  fun order limit =>
    let asked := (x.ask mint (.salvage order limit)).1
    (asked.delayMs, (y.arrive asked.answer).1)

/-- However long the sell would take, a paper exchange gives it up at the limit. -/
theorem Paper.Exchange.isTimeout_salvageWait (x y : Exchange) (mint : String) :
    (x.salvageWait y mint).IsTimeout where
  inTime order limit := by
    simp only [salvageWait, ask]
    split
    · next hle => exact hle
    · exact Nat.le_refl _
  answers order limit := by
    simp only [salvageWait, ask]
    split
    · cases (x.chooseSell order).1.answer <;> exact .inr ⟨_, rfl⟩
    · exact .inl rfl

namespace Run

variable {plan : Plan} {r : Run} {w : List Effect} {kind : FatalKind} {cause : ExecutionFault}
variable {cancelled : Bool} {now : Moment} {reply : Reply}

/-- The one sell of a run whose buy has failed for good: of everything, by the time limit. -/
def lastResort (plan : Plan) : Request :=
  .salvage (makeSalvageOrder plan) plan.settings.salvageTimeoutMs.toNat

/-- Looks at the market, buys, and the answers to them. -/
def Effect.isIdle : Effect → Bool
  | .call .snapshot => true
  | .call (.buy _) => true
  | .answer _ => true
  | _ => false

theorem isIdle_of_mem_idle (h : w ∈ (idleTick plan)∗) : ∀ e ∈ w, e.isIdle = true := by
  obtain ⟨ticks, rfl, hticks⟩ := Language.mem_kstar.mp h
  intro e he
  obtain ⟨tick, htick, hin⟩ := List.mem_flatten.mp he
  rcases hticks tick htick with ⟨answer, rfl⟩ | ⟨seen, order, cause, -, rfl⟩
  · simp only [look, exchange, List.mem_cons, List.not_mem_nil, or_false] at hin
    rcases hin with rfl | rfl <;> rfl
  · simp only [look, exchange, List.mem_append, List.mem_cons, List.not_mem_nil, or_false] at hin
    rcases hin with (rfl | rfl) | rfl | rfl <;> rfl

/-- Up to its first buy that is executed, a run has only looked and tried to buy. -/
theorem isIdle_of_buying {seen : Snapshot} (h : Shows plan (.buying seen) w) :
    ∀ e ∈ w, e.isIdle = true := by
  obtain ⟨u, hu, order, rfl⟩ := h
  exact List.forall_mem_append.mpr
    ⟨isIdle_of_mem_idle (kstar_snoc hu (look_mem_idleTick (.ok seen))),
      List.forall_mem_singleton.mpr rfl⟩

/-! ## One step -/

theorem request_salvaging (hphase : r.phase = .salvaging kind cause) :
    r.request? plan = some (lastResort plan) := by
  simp only [request?, hphase]
  rfl

theorem resume_fatal {seen : Snapshot} (cancelled : Bool) (now : Moment)
    (hphase : r.phase = .buying seen) (hfatal : plan.classify cause = .fatal kind) : ∃ u line,
    resume plan cancelled now r (.order (.error cause)) = (u, [.log line]) ∧
      u.phase = .salvaging kind cause := by
  simp only [resume, hphase, buyFailed, hfatal]
  exact ⟨_, _, rfl, rfl⟩

/-- Whatever comes of the salvage, the run fails with the fault of the buy. -/
theorem resume_salvaging (cancelled : Bool) (now : Moment)
    (hphase : r.phase = .salvaging kind cause) (hreply : (lastResort plan).awaits reply = true) :
    ∃ line,
    resume plan cancelled now r reply =
      (r.enter (.ended (.error (.buyFatal kind cause))), [.log line]) := by
  cases reply with
  | order answer => cases answer <;> exact ⟨_, by simp only [resume, hphase]; rfl⟩
  | expired => exact ⟨_, by simp only [resume, hphase]; rfl⟩
  | _ => cases hreply

theorem salvaging_of_failed {fault : Fault} (hover : r.isOver = false)
    (h : (resume plan cancelled now r reply).1.phase = .ended (.error fault)) :
    ∃ kind cause, r.phase = .salvaging kind cause ∧ fault = .buyFatal kind cause ∧
      (lastResort plan).awaits reply = true := by
  by_cases hreply : (r.request? plan).any (·.awaits reply) = true
  · have hleads : r.phase.leadsTo cancelled (resume plan cancelled now r reply).1.phase = true :=
      leadsTo_resume hreply
    rw [h] at hleads
    -- Nothing else leads to a failure in the graph of the phases.
    cases hphase : r.phase with
    | salvaging kind cause =>
      rw [request_salvaging hphase] at hreply
      obtain ⟨line, hresume⟩ := resume_salvaging cancelled now hphase hreply
      rw [hresume] at h
      cases h
      exact ⟨kind, cause, rfl, rfl, hreply⟩
    | fetching stance =>
      rw [hphase] at hleads
      cases stance <;> cases hleads
    | resting stance =>
      rw [hphase] at hleads
      cases stance <;> cases hleads
    | _ =>
      rw [hphase] at hleads
      cases hleads
  · rw [resume_unawaited (by simpa using hreply)] at h
    rw [isOver, show r.phase = _ from h] at hover
    cases hover

/-! ## The rest of the run -/

/-- What has been seen of a run that had shown `w` when its buy failed for good. -/
def lastSeen (plan : Plan) (cause : ExecutionFault) (w : List Effect) : List Effect :=
  w ++ [.answer (.order (.error cause)), .call (lastResort plan)]

/-- The run waits for the salvage, or it has failed. -/
def Salvaged (plan : Plan) (kind : FatalKind) (cause : ExecutionFault) (w : List Effect)
    (s : Run × List Effect) : Prop :=
  (s.1.phase = .salvaging kind cause ∧ s.2 = lastSeen plan cause w) ∨
    ∃ reply, (lastResort plan).awaits reply = true ∧
      s.1.phase = .ended (.error (.buyFatal kind cause)) ∧
      s.2 = lastSeen plan cause w ++ [.answer reply]

theorem takeTurn_salvaging {s : Run × List Effect} (hphase : s.1.phase = .salvaging kind cause)
    (hseen : s.2 = lastSeen plan cause w) {t : Turn} (hreply : (lastResort plan).awaits t.reply) :
    (takeTurn plan s t).1.phase = .ended (.error (.buyFatal kind cause)) ∧
      (takeTurn plan s t).2 = lastSeen plan cause w ++ [.answer t.reply] := by
  obtain ⟨line, hresume⟩ := resume_salvaging t.cancelled t.now hphase hreply
  have hawaited : Effect.ofReply t.reply = [.answer t.reply] := by
    cases hr : t.reply with
    | rested =>
      rw [hr] at hreply
      cases hreply
    | _ => rfl
  simp only [takeTurn, request_salvaging hphase, Option.any_some, hreply, if_true, hresume,
    hawaited, hseen]
  exact ⟨rfl, List.append_nil _⟩

theorem Salvaged.takeTurn {s : Run × List Effect} (h : Salvaged plan kind cause w s) (t : Turn) :
    Salvaged plan kind cause w (takeTurn plan s t) := by
  rcases h with ⟨hphase, hseen⟩ | ⟨reply, hreply, hphase, hseen⟩
  · by_cases hawaited : (lastResort plan).awaits t.reply = true
    · obtain ⟨hended, hmore⟩ := takeTurn_salvaging hphase hseen hawaited
      exact .inr ⟨t.reply, hawaited, hended, hmore⟩
    · rw [Run.takeTurn, request_salvaging hphase, Option.any_some, if_neg hawaited]
      exact .inl ⟨hphase, hseen⟩
  · have hrequest : s.1.request? plan = none := by simp only [request?, hphase]
    rw [Run.takeTurn, hrequest, if_neg (by simp)]
    exact .inr ⟨reply, hreply, hphase, hseen⟩

/-- What comes of a run in the state `s` whose buy fails for good at a turn. -/
structure Salvages (plan : Plan) (kind : FatalKind) (cause : ExecutionFault)
    (s : Run × List Effect) (t : Turn) : Prop where
  /-- So far it has only looked and tried to buy. -/
  idle : ∀ e ∈ s.2, e.isIdle = true
  asks : (takeTurn plan s t).1.phase = .salvaging kind cause ∧
    (takeTurn plan s t).2 = lastSeen plan cause s.2
  /-- It is over within the time limit, whatever becomes of the sell. -/
  inTime : ∀ (wait : LimitedWait) (cancelled : Bool) (wall : Stamp), wait.IsTimeout →
    let limit := plan.settings.salvageTimeoutMs.toNat
    let (delayMs, reply) := wait (makeSalvageOrder plan) limit
    let last : Turn := ⟨cancelled, ⟨t.now.ms + delayMs, wall⟩, reply⟩
    delayMs ≤ limit ∧
      (takeTurn plan (takeTurn plan s t) last).1.phase =
        .ended (.error (.buyFatal kind cause)) ∧
      (takeTurn plan (takeTurn plan s t) last).2 = lastSeen plan cause s.2 ++ [.answer reply]
  /-- There is nothing else that it does. -/
  later : ∀ turns : List Turn,
    Salvaged plan kind cause s.2 (turns.foldl (takeTurn plan) (takeTurn plan s t))

theorem salvages_of_fatal {s : Run × List Effect} {seen : Snapshot} {t : Turn}
    (hshows : Shows plan s.1.phase s.2) (hphase : s.1.phase = .buying seen)
    (hreply : t.reply = .order (.error cause)) (hfatal : plan.classify cause = .fatal kind) :
    Salvages plan kind cause s t := by
  have hrequest : s.1.request? plan = some (.buy (makeBuyOrder plan)) := by
    simp only [request?, hphase]
  obtain ⟨u, line, hresume, hnext⟩ := resume_fatal t.cancelled t.now hphase hfatal
  have heffects : effects plan (u, [.log line]) = [.call (lastResort plan)] := by
    rw [effects, request_salvaging hnext]
    rfl
  have hasks : (takeTurn plan s t).1.phase = .salvaging kind cause ∧
      (takeTurn plan s t).2 = lastSeen plan cause s.2 := by
    have hawaited : (Request.buy (makeBuyOrder plan)).awaits (.order (.error cause)) = true := rfl
    rw [takeTurn, hrequest, hreply, Option.any_some, if_pos hawaited]
    simp only [hresume, heffects, List.append_assoc]
    exact ⟨hnext, rfl⟩
  refine ⟨?_, hasks, fun wait cancelled wall hwait => ?_, fun turns => ?_⟩
  · rw [hphase] at hshows
    exact isIdle_of_buying hshows
  · exact ⟨hwait.inTime _ _, takeTurn_salvaging hasks.1 hasks.2 (hwait.awaits _ _)⟩
  · exact List.foldlRecOn (motive := Salvaged plan kind cause s.2) turns _ (.inl hasks)
      fun _ h t _ => h.takeTurn t

end Run

end LaunchDesk
