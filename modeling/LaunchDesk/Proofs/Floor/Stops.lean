import LaunchDesk.Proofs.Floor.Moves
import LaunchDesk.Proofs.Sequences

/-!
# Which machines are cancelled

A machine is cancelled by hand, or because a stop request for everyone reaches a run at work on it
that the request does not exclude. Nothing else cancels it, and it stays cancelled.
-/

namespace LaunchDesk

/-! ## How requests are built -/

namespace StopRequest

theorem foldl_excluding_intake (reason : StopReason) (bots : List BotId) :
    bots.foldl excluding (.intake reason) = .intake reason := by
  induction bots with
  | nil => rfl
  | cons bot bots ih => exact ih

theorem foldl_excluding_all (reason : StopReason) (bots : List BotId) :
    bots.foldl excluding (.all reason) = ⟨reason, .all bots⟩ := by
  induction bots using List.reverseRecOn with
  | nil => rfl
  | append_singleton bots bot ih =>
    rw [List.foldl_append, ih]
    rfl

end StopRequest

namespace Floor

variable {f : Floor} {k m : Nat} {p : Player} {move : Move}

/-- The requests of which the recorder is told in a move. -/
def news (f : Floor) (move : Move) : List StopRequest :=
  (Desk.requests (f.after move).desk.notes).drop (Desk.requests f.desk.notes).length

/-- The machine is cancelled by hand, or a run at work on it is asked to stop. -/
def Stops (f : Floor) (m : Nat) (move : Move) : Prop :=
  move = .cancel m ∨ ∃ request ∈ f.news move, ∃ k p, f.Works k p ∧ p.machine = m ∧
    ∃ excluded, request.scope = .all excluded ∧ p.bot ∉ excluded

theorem lists_iff (h : f.Registered) (m : Nat) (bot : BotId) :
    Desk.Lists f.desk.bus.stops m bot ↔ ∃ k p, f.Works k p ∧ p.machine = m ∧ p.bot = bot := by
  unfold Desk.Lists
  simp only [h.enrols.listed]
  constructor
  · rintro ⟨id, k, p, hp, hentry⟩
    obtain ⟨-, hsubscriber⟩ := Prod.ext_iff.mp hentry
    obtain ⟨hm, hbot⟩ := Subscriber.run.inj hsubscriber
    exact ⟨k, p, hp, hm, hbot⟩
  · rintro ⟨k, p, hp, rfl, rfl⟩
    exact ⟨_, k, p, hp, rfl⟩

theorem cancels_iff (h : f.Registered) (requests : List StopRequest) (m : Nat) :
    f.desk.Cancels requests m ↔ (f.desk.machines m).cancelled = true ∨
      ∃ request ∈ requests, ∃ k p, f.Works k p ∧ p.machine = m ∧
        ∃ excluded, request.scope = .all excluded ∧ p.bot ∉ excluded := by
  simp only [Desk.Cancels, lists_iff h, StopRequest.appliesTo_iff]
  refine or_congr_right ⟨?_, ?_⟩
  · rintro ⟨request, hr, bot, ⟨k, p, hp, hm, rfl⟩, happlies⟩
    exact ⟨request, hr, k, p, hp, hm, happlies⟩
  · rintro ⟨request, hr, k, p, hp, hm, happlies⟩
    exact ⟨request, hr, p.bot, ⟨k, p, hp, hm, rfl⟩, happlies⟩

/-- What a move comes to for the recorder and for the machines. -/
structure Does (f g : Floor) (move : Move) (requests : List StopRequest) : Prop where
  told : Desk.requests g.desk.notes = Desk.requests f.desk.notes ++ requests
  cancelled : ∀ m, (g.desk.machines m).cancelled = true ↔
    f.desk.Cancels requests m ∨ move = .cancel m

theorem does_of_broadcasts {g : Floor} {e : Desk} {requests : List StopRequest}
    (h : f.Registered) (hb : Desk.Broadcasts f.desk e requests)
    (htold : Desk.requests g.desk.notes = Desk.requests e.notes)
    (hflags : ∀ m, (g.desk.machines m).cancelled = (e.machines m).cancelled)
    (hmove : ∀ m, move ≠ .cancel m) : Does f g move requests where
  told := by rw [htold, hb.told_once h.recorders]
  cancelled m := by
    rw [hflags, hb.cancelled]
    exact (or_iff_left (hmove m)).symm

theorem does_proceed (h : f.Registered) (t : Trader) (next : Run.Progress)
    (hanswers : Desk.Answers f.desk (f.desk.carryOut next.2).1) (players : List Player)
    (hmove : ∀ m, move ≠ .cancel m) :
    ∃ requests, Does f ⟨(f.desk.proceed k t next).1, players⟩ move requests := by
  obtain ⟨requests, hb, -⟩ := hanswers
  rcases Desk.proceed_cases f.desk k t next with ⟨-, request, -, hdesk⟩ | ⟨-, hdesk⟩
  · rw [hdesk]
    refine ⟨requests, does_of_broadcasts h hb ?_ (fun _ => rfl) hmove⟩
    exact (Desk.requests_append _ _).trans (List.append_nil _)
  · rw [hdesk]
    exact ⟨requests, does_of_broadcasts h hb rfl (Desk.cancelled_leave _ t) hmove⟩

theorem does_nothing (f : Floor) (hmove : ∀ m, move ≠ .cancel m) : Does f f move [] where
  told := (List.append_nil _).symm
  cancelled m := by simp [Desk.Cancels, hmove]

theorem does_cancel (f : Floor) (machine : Nat) :
    Does f (f.after (.cancel machine)) (.cancel machine) [] where
  told := by
    simp only [after, Desk.cancel]
    split
    · exact (List.append_nil _).symm
    · exact Desk.requests_append _ _
  cancelled m := by
    simp only [after, Desk.cancel, Desk.Cancels, Move.cancel.injEq]
    by_cases hm : m = machine
    · subst hm
      cases hcancelled : (f.desk.machines m).cancelled with
      | true => simp [hcancelled]
      | false => simp [Desk.updateMachine, Desk.log, Desk.note]
    · cases hcancelled : (f.desk.machines machine).cancelled with
      | true => simp [Ne.symm hm]
      | false => simp [Desk.updateMachine, Desk.log, Desk.note, hm, Ne.symm hm]

theorem does_start {machine : Nat} {plan : Plan} {now : Moment} {d : Desk} {t : Trader}
    (hstart : f.desk.start? f.players.length machine plan now = some (d, t))
    (players : List Player) : Does f ⟨d, players⟩ (.start machine plan now) [] := by
  obtain ⟨-, -, request, rfl⟩ := Desk.start?_spec hstart
  have hquiet := Desk.carryOut_quiet_broadcasts (d := f.desk.manned machine plan.botId)
    (Run.start_spec plan (f.desk.machines machine).cancelled now plan.botId).1
  refine ⟨?_, fun m => ?_⟩
  · exact (Desk.requests_append _ _).trans ((List.append_nil _).trans hquiet.told)
  · refine (hquiet.cancelled m).trans ?_
    simp [Desk.Cancels, Desk.cancelled_manned]

theorem does_publish (h : f.Registered) (event : Event) :
    ∃ requests, Does f { f with desk := (f.desk.publish event).1 } (.publish event) requests := by
  by_cases hevent : event.kind = .stop
  · cases event with
    | stop request =>
      exact ⟨[request], does_of_broadcasts h (Desk.publishStop_broadcasts f.desk request) rfl
        (fun _ => rfl) nofun⟩
    | trade bot fill => cases hevent
    | cycle bot outcome => cases hevent
  · obtain ⟨requests, hb, -⟩ := Desk.publish_answers f.desk event hevent
    exact ⟨requests, does_of_broadcasts h hb rfl (fun _ => rfl) nofun⟩

theorem does_after (h : f.Registered) (move : Move) :
    ∃ requests, Does f (f.after move) move requests := by
  by_cases hcancel : ∃ m, move = .cancel m
  · obtain ⟨m, rfl⟩ := hcancel
    exact ⟨[], does_cancel f m⟩
  have hmove : ∀ m, move ≠ .cancel m := fun m heq => hcancel ⟨m, heq⟩
  have hbecomes := becomes_after f move
  generalize f.after move = g at hbecomes ⊢
  cases hbecomes with
  | idle => exact ⟨[], does_nothing f hmove⟩
  | starts hstart => exact ⟨[], does_start hstart _⟩
  | @replies k p now reply hp hawaited =>
    exact does_proceed h p.trader _ (Desk.resume_answers ..) _ hmove
  | @aborts k p hp =>
    exact ⟨[], does_of_broadcasts h (.refl f.desk) rfl (Desk.cancelled_leave f.desk p.trader) hmove⟩
  | cancels machine => exact absurd rfl (hmove machine)
  | publishes event => exact does_publish h event

/-- Only a cancel by hand and a request for a run at work change whether a machine is cancelled. -/
theorem cancelled_after (h : f.Registered) (m : Nat) (move : Move) :
    ((f.after move).desk.machines m).cancelled = true ↔
      (f.desk.machines m).cancelled = true ∨ f.Stops m move := by
  obtain ⟨requests, hdoes⟩ := does_after h move
  have hnews : f.news move = requests := by rw [news, hdoes.told, List.drop_left]
  rw [hdoes.cancelled, cancels_iff h, Stops, hnews, or_assoc, or_comm (a := move = _)]

theorem news_publish (h : f.Registered) (request : StopRequest) :
    f.news (.publish (.stop request)) = [request] := by
  have htold := (Desk.publishStop_broadcasts f.desk request).told_once h.recorders
  exact (congrArg (List.drop _) htold).trans (List.drop_left ..)

theorem cancelled_play (max : Option Nat) (oversight : Option (Limits × Decimal))
    (moves : List Move) (m : Nat) :
    ((play max oversight moves).desk.machines m).cancelled = true ↔
      Sometime (fun before move => (play max oversight before).Stops m move) moves := by
  induction moves using List.reverseRecOn with
  | nil =>
    refine iff_of_false ?_ not_sometime_nil
    cases oversight <;> exact Bool.false_ne_true
  | append_singleton moves move ih =>
    rw [sometime_snoc, ← ih, ← cancelled_after (registered_play max oversight moves), ← play_snoc]

/-- A machine is cancelled exactly if somebody has cancelled it by hand, or a stop request for
everyone was published while a run was at work on it whose bot the request does not exclude. A
request for the intake cancels no machine, however many bots it is to exclude; a request for
everyone cancels those on which a run of another bot than the excluded ones is at work. -/
theorem cancelled_iff_stopped_at_work (max : Option Nat) (oversight : Option (Limits × Decimal))
    (moves : List Move) (m : Nat) :
    let f := play max oversight moves
    ((f.desk.machines m).cancelled = true ↔
      Sometime (fun before move => (play max oversight before).Stops m move) moves) ∧
    ∀ (reason : StopReason) (bots : List BotId),
      let narrow : StopRequest := bots.foldl .excluding (.intake reason)
      let wide : StopRequest := bots.foldl .excluding (.all reason)
      f.news (.publish (.stop narrow)) = [narrow] ∧ f.news (.publish (.stop wide)) = [wide] ∧
      ((f.after (.publish (.stop narrow))).desk.machines m).cancelled =
        (f.desk.machines m).cancelled ∧
      (((f.after (.publish (.stop wide))).desk.machines m).cancelled = true ↔
        (f.desk.machines m).cancelled = true ∨
          ∃ k p, f.Works k p ∧ p.machine = m ∧ p.bot ∉ bots) := by
  intro f
  have hf : f.Registered := registered_play max oversight moves
  refine ⟨cancelled_play max oversight moves m, fun reason bots => ?_⟩
  intro narrow wide
  have hnarrow : narrow = .intake reason := StopRequest.foldl_excluding_intake reason bots
  have hwide : wide = ⟨reason, .all bots⟩ := StopRequest.foldl_excluding_all reason bots
  refine ⟨news_publish hf _, news_publish hf _, ?_, ?_⟩
  · rw [Bool.eq_iff_iff, cancelled_after hf, Stops, news_publish hf, hnarrow]
    simp [StopRequest.intake]
  · rw [cancelled_after hf, Stops, news_publish hf, hwide]
    simp

/-- Two runs are at work, and one of them is excluded from a stop. -/
def excludingStop : List Move :=
  let other : Plan := { Run.eagerPlan with botId := ⟨⟨1, by decide⟩⟩ }
  [.start 0 Run.eagerPlan ⟨0, default⟩, .start 1 other ⟨0, default⟩,
    .publish (.stop ((StopRequest.all .shutdown).excluding other.botId))]

theorem excluded_run_is_not_stopped :
    let f := play none none excludingStop
    ((f.desk.machines 0).cancelled = true ∧
      Sometime (fun before move => (play none none before).Stops 0 move) excludingStop) ∧
    ((f.desk.machines 1).cancelled = false ∧
      ¬ Sometime (fun before move => (play none none before).Stops 1 move) excludingStop) := by
  obtain ⟨hstopped, -⟩ := cancelled_iff_stopped_at_work none none excludingStop 0
  obtain ⟨hspared, -⟩ := cancelled_iff_stopped_at_work none none excludingStop 1
  have hfirst : ((play none none excludingStop).desk.machines 0).cancelled = true := by
    decide +kernel
  have hsecond : ((play none none excludingStop).desk.machines 1).cancelled = false := by
    decide +kernel
  refine ⟨⟨hfirst, hstopped.mp hfirst⟩, hsecond, fun hsometime => ?_⟩
  rw [hspared.mpr hsometime] at hsecond
  cases hsecond

end Floor

end LaunchDesk
