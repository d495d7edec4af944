import LaunchDesk.Proofs.Run.Words

/-!
# The turns that reach a run

A run takes no notice of a turn with a reply that it does not wait for. `taken` is the turns that
reach it, and what each of them keeps is kept by all turns. `Prompt` turns come at once.
-/

namespace LaunchDesk.Run

variable {plan : Plan} {r : Run} {s : Run × List Effect} {t : Turn}
variable {stance : Stance} {reply : Reply}

/-- The run waits for what the turn brings. -/
def awaits (plan : Plan) (s : Run × List Effect) (t : Turn) : Bool :=
  (s.1.request? plan).any (·.awaits t.reply)

theorem takeTurn_awaited (h : awaits plan s t = true) :
    takeTurn plan s t =
      ((s.1.resume plan t.cancelled t.now t.reply).1,
        s.2 ++ Effect.ofReply t.reply ++
          effects plan (s.1.resume plan t.cancelled t.now t.reply)) := if_pos h

theorem takeTurn_unawaited (h : awaits plan s t = false) : takeTurn plan s t = s :=
  if_neg (Bool.eq_false_iff.mp h)

theorem rested_of_awaits (hphase : r.phase = .resting stance)
    (h : (r.request? plan).any (·.awaits reply) = true) : reply = .rested := by
  have hawaits := awaits_of_request h
  rw [hphase] at hawaits
  cases hawaits
  rfl

theorem snapshot_of_awaits (hphase : r.phase = .fetching stance)
    (h : (r.request? plan).any (·.awaits reply) = true) : ∃ answer, reply = .snapshot answer := by
  have hawaits := awaits_of_request h
  rw [hphase] at hawaits
  cases hawaits <;> exact ⟨_, rfl⟩

theorem stored_of_awaits {outcome : Outcome} {report : Report}
    (hphase : r.phase = .recording outcome report)
    (h : (r.request? plan).any (·.awaits reply) = true) : ∃ answer, reply = .stored answer := by
  have hawaits := awaits_of_request h
  rw [hphase] at hawaits
  cases hawaits
  exact ⟨_, rfl⟩

/-- The turns among the given ones that reach a run, one after the other. -/
def taken (plan : Plan) : Run × List Effect → List Turn → List Turn
  | _, [] => []
  | s, t :: turns =>
    if awaits plan s t then t :: taken plan (takeTurn plan s t) turns else taken plan s turns

theorem taken_snoc (s : Run × List Effect) (turns : List Turn) (t : Turn) :
    taken plan s (turns ++ [t]) = taken plan s turns ++
      if awaits plan (turns.foldl (takeTurn plan) s) t then [t] else [] := by
  induction turns generalizing s with
  | nil => rw [List.nil_append, taken]; rfl
  | cons first turns ih =>
    rw [List.cons_append, taken, taken, List.foldl_cons]
    split
    · rw [ih, List.cons_append]
    · next h => rw [ih, takeTurn_unawaited (eq_false_of_ne_true h)]

theorem mem_of_mem_taken {v : Turn} (turns : List Turn) (h : v ∈ taken plan s turns) :
    v ∈ turns := by
  induction turns generalizing s with
  | nil => exact h
  | cons t turns ih =>
    rw [taken] at h
    split at h
    · rcases List.mem_cons.mp h with rfl | hlater
      · exact List.mem_cons_self
      · exact List.mem_cons_of_mem _ (ih hlater)
    · exact List.mem_cons_of_mem _ (ih h)

/-- What a run keeps in each turn that reaches it, with the turns so far, it keeps in all turns. -/
theorem taken_induction {P : Run × List Effect → List Turn → Prop} (hstart : P s [])
    (hstep : ∀ u ts t, P u ts → awaits plan u t = true → P (takeTurn plan u t) (ts ++ [t]))
    (turns : List Turn) : P (turns.foldl (takeTurn plan) s) (taken plan s turns) := by
  induction turns using List.reverseRecOn with
  | nil => exact hstart
  | append_singleton turns t ih =>
    rw [taken_snoc, List.foldl_append, List.foldl_cons, List.foldl_nil]
    split
    · next h => exact hstep _ _ t ih h
    · next h => rwa [takeTurn_unawaited (eq_false_of_ne_true h), List.append_nil]

/-- How long it takes to answer a request at once: only a pause takes time. -/
def pauseMs : Option Request → Nat
  | some (.rest ms) => ms
  | _ => 0

/-- Turns for a run from the time `ms` on: each of them brings what the run waits for, and at
once. -/
def Prompt (plan : Plan) : Run × List Effect → Nat → List Turn → Prop
  | _, _, [] => True
  | s, ms, t :: turns => awaits plan s t = true ∧ t.now.ms = ms + pauseMs (s.1.request? plan) ∧
      Prompt plan (takeTurn plan s t) t.now.ms turns

instance decidablePrompt (plan : Plan) : ∀ (s : Run × List Effect) (ms : Nat) (turns : List Turn),
    Decidable (Prompt plan s ms turns)
  | _, _, [] => inferInstanceAs (Decidable True)
  | s, _, t :: turns =>
    have := decidablePrompt plan (takeTurn plan s t) t.now.ms turns
    inferInstanceAs (Decidable (_ ∧ _ ∧ _))

theorem prompt_append {ms : Nat} {before later : List Turn}
    (hprompt : Prompt plan s ms (before ++ later)) : Prompt plan s ms before := by
  induction before generalizing s ms with
  | nil => exact trivial
  | cons t before ih =>
    obtain ⟨hawaits, hnow, hprompt⟩ := hprompt
    exact ⟨hawaits, hnow, ih hprompt⟩

theorem pauses_of_valid {settings : TradingSettings} (h : settings.validate = .ok ()) :
    0 < settings.sellPollIntervalMs.toNat ∧ 0 < settings.buyPollIntervalMs.toNat ∧
      settings.sellPollIntervalMs.toNat ∣ settings.buyPollIntervalMs.toNat := by
  have hproblem : settings.problem? = none := by
    unfold TradingSettings.validate at h
    split at h
    · assumption
    · cases h
  rw [TradingSettings.problem?] at hproblem
  split at hproblem
  · cases hproblem
  split at hproblem
  · cases hproblem
  next hzero hmultiple =>
  rw [not_or] at hzero
  refine ⟨Nat.pos_of_ne_zero fun hnone => hzero.1 (UInt64.toNat_inj.mp hnone),
    Nat.pos_of_ne_zero fun hnone => hzero.2 (UInt64.toNat_inj.mp hnone), ?_⟩
  rw [not_not] at hmultiple
  refine Nat.dvd_of_mod_eq_zero ?_
  rw [← UInt64.toNat_mod, hmultiple]
  rfl

theorem play_append (plan : Plan) (cancelled : Bool) (now : Moment) (before later : List Turn) :
    play plan cancelled now (before ++ later) =
      later.foldl (takeTurn plan) (play plan cancelled now before) := List.foldl_append

theorem seen_foldl (plan : Plan) (s : Run × List Effect) (turns : List Turn) :
    ∃ more, (turns.foldl (takeTurn plan) s).2 = s.2 ++ more := by
  induction turns generalizing s with
  | nil => exact ⟨[], (List.append_nil _).symm⟩
  | cons t turns ih =>
    obtain ⟨more, hmore⟩ := ih (takeTurn plan s t)
    rw [List.foldl_cons, hmore]
    cases hawaits : awaits plan s t with
    | false => exact ⟨more, by rw [takeTurn_unawaited hawaits]⟩
    | true =>
      rw [takeTurn_awaited hawaits]
      exact ⟨_, (List.append_assoc ..).trans (List.append_assoc ..)⟩

/-- What is seen of a run in some turns after others. -/
def seenSince (plan : Plan) (cancelled : Bool) (now : Moment) (before later : List Turn) :
    List Effect :=
  (play plan cancelled now (before ++ later)).2.drop (play plan cancelled now before).2.length

theorem play_seen (plan : Plan) (cancelled : Bool) (now : Moment) (before later : List Turn) :
    (play plan cancelled now (before ++ later)).2 =
      (play plan cancelled now before).2 ++ seenSince plan cancelled now before later := by
  obtain ⟨more, hmore⟩ := seen_foldl plan (play plan cancelled now before) later
  rw [seenSince, play_append, hmore, List.drop_left]

end LaunchDesk.Run
