import LaunchDesk.Proofs.Session.Wallet
import LaunchDesk.Proofs.Session.Watch

/-!
# The places of a session

At any time as many places of the intake are taken as there are seats that hold one, and whoever is
at work in a seat is not over. That is so whatever replies the runs get and whatever is published,
and also when runs panic or the session is let go.
-/

namespace LaunchDesk

namespace Desk

variable {d e f : Desk}

/-- The intake takes a place for everyone who is admitted, and it has no notes that the desk has not
taken over. -/
structure Admits (d e : Desk) : Prop where
  heard : e.intake.notes = []
  inProgress : e.intake.inProgress + (admitted d.notes).length =
    d.intake.inProgress + (admitted e.notes).length

theorem Admits.refl (hd : d.intake.notes = []) : Admits d d := ⟨hd, rfl⟩

theorem Admits.trans (h : Admits d e) (h' : Admits e f) : Admits d f where
  heard := h'.heard
  inProgress := by
    have hfirst := h.inProgress
    have hsecond := h'.inProgress
    omega

theorem Follows.admits {events : List Event} (h : Follows d e events) : Admits d e :=
  ⟨h.heard, h.inProgress⟩

theorem Admits.same (h : Admits d e) (hintake : f.intake = e.intake)
    (hnotes : admitted f.notes = admitted e.notes) : Admits d f where
  heard := by rw [hintake, h.heard]
  inProgress := by rw [hintake, hnotes, h.inProgress]

theorem Admits.note (h : Admits d e) {n : Note} (hn : admitted [n] = []) :
    Admits d (e.note n) := by
  refine h.same rfl ?_
  rw [Desk.note, admitted_append, hn, List.append_nil]

theorem lasting_admits (d : Desk) : LastingTrades (Admits d) where
  note := by
    intro e n hn h
    refine h.note ?_
    cases n with
    | log line => rfl
    | recorded event => rfl
    | _ => cases hn
  cancel := fun _ h => h.same rfl rfl
  oversee := fun _ _ _ h => h.same rfl rfl
  stop := fun h => h.trans (follows_stopIntake true h.heard).admits
  start := fun _ _ h => h.trans (follows_startIntake true h.heard).admits
  count := fun _ _ h => h.same rfl rfl
  owed := fun _ h => h.note rfl

end Desk

namespace Session

variable {s v : Session} {d e : Desk} {k : Nat} {t : Trader} {new : Seat}

/-! ## What becomes of the seats -/

/-- The run in a seat is not over, if there is one. -/
def Seat.isBusy : Seat → Bool
  | .working t => !t.run.isOver
  | _ => true

/-- In a turn the seats stay as they are, a run goes on in its seat, or a seat is freed; whoever is
admitted meanwhile gets a seat behind them. -/
inductive Shifts (s v : Session) : Prop
  | stays (hplaces : Desk.Admits s.desk v.desk) (hseats : Seated s v s.seats)
  | advances {k : Nat} {old new : Seat} (hplaces : Desk.Admits s.desk v.desk)
      (hk : s.seats[k]? = some old) (hold : old.isOn = true) (hnew : new.hasPlace = true)
      (hbusy : new.isBusy = true) (hseats : Seated s v (s.seats.set k new))
  | frees {k : Nat} {ending : Intake.Ending} (hplaces : Desk.Admits s.desk.relieved v.desk)
      (hk : s.seats[k]? = some (.leaving ending)) (hseats : Seated s v (s.seats.set k .gone))

theorem shifts_settle (hadmits : Desk.Admits s.desk e) (hnotes : s.desk.notes <+: e.notes) :
    Shifts s (s.settle e) := by
  refine .stays ?_ (seated_settle hnotes)
  rwa [desk_settle]

theorem shifts_desk (hadmits : Desk.Admits s.desk e) {more : List Desk.Note}
    (hmore : e.notes = s.desk.notes ++ more) (hnone : Desk.admitted more = []) :
    Shifts s { s with desk := e } := .stays hadmits (seated_same hmore hnone)

theorem shifts_set {old : Seat} (hadmits : Desk.Admits s.desk e)
    (hnotes : s.desk.notes <+: e.notes) (hk : s.seats[k]? = some old) (hold : old.isOn = true)
    (hnew : new.hasPlace = true) (hbusy : new.isBusy = true) :
    Shifts s ((s.settle e).setSeat k new) := by
  refine .advances ?_ hk hold hnew hbusy (seated_set hnotes hk)
  change Desk.Admits s.desk (s.settle e).desk
  rwa [desk_settle]

theorem shifts_proceed {old : Seat} {p : Run.Progress} (hadmits : Desk.Admits s.desk d)
    (hnotes : s.desk.notes <+: d.notes) (hk : s.seats[k]? = some old) (hold : old.isOn = true) :
    Shifts s (s.proceed k (d.proceed k t p).1 (d.proceed k t p).2) := by
  have hcarried := (Desk.lasting_admits s.desk).carryOut p.2 hadmits
  have hlonger := hnotes.trans ((Desk.lasting_upholds d).carryOut p.2 (.refl d)).notes
  rcases proceed_cases s k (rfl : (d.proceed k t p).2 = _) with
    ⟨request, hrequest, hasks⟩ | ⟨e, ending, hconclude, hleaves⟩
  · rw [hasks]
    exact shifts_set (hcarried.note rfl) (hlonger.trans (List.prefix_append _ _)) hk hold rfl
      (by simp [Seat.isBusy, Run.isOver_of_request hrequest])
  · have hleft : Desk.Admits s.desk ((d.carryOut p.2).1.leave (d.proceed k t p).2) :=
      hcarried.same rfl rfl
    have hconcluded := lasting_conclude (Desk.lasting_admits s.desk).toLasting hleft hconclude
    have hlast := lasting_conclude (Desk.lasting_upholds _).toLasting (.refl _) hconclude
    rw [hleaves]
    exact shifts_set (hconcluded.note rfl)
      ((hlonger.trans hlast.notes).trans (List.prefix_append _ _)) hk hold rfl rfl

theorem Move.Operates.admits {move : Move} {op : Intake.Operation} (hop : move.Operates op)
    (hd : d.intake.notes = []) : Desk.Admits d (d.updateIntake (d.intake.perform op)) := by
  cases hop with
  | start resuming => exact (Desk.follows_startIntake resuming hd).admits
  | stop force => exact (Desk.follows_stopIntake force hd).admits
  | deliver stale opportunity => exact (Desk.follows_deliver opportunity hd).admits

theorem shifts_take (hd : s.desk.intake.notes = []) (turn : Turn) : Shifts s (s.take turn) := by
  have hrefl := Desk.Admits.refl hd
  have hupholds := Desk.Upholds.refl s.desk
  have hlasting := Desk.lasting_admits s.desk
  have hheralded : ∀ k opportunity, Desk.Admits s.desk (s.heralded k opportunity) :=
    fun _ _ => hrefl.note rfl
  have hbecomes := becomes_take s turn
  generalize s.take turn = v at hbecomes ⊢
  cases hbecomes with
  | idle => exact shifts_desk hrefl (List.append_nil _).symm rfl
  | @operates move op hop => exact shifts_settle (hop.admits hd) (hupholds.updateIntake op).notes
  | prepares change hchange =>
    exact shifts_desk (Desk.follows_updateFeed _ hd).admits (List.append_nil _).symm rfl
  | begins hk hstart =>
    exact shifts_proceed ((hheralded _ _).same rfl rfl) (List.prefix_append _ _) hk rfl
  | refuses hk =>
    exact shifts_set ((hheralded _ _).note rfl)
      ((List.prefix_append _ _).trans (List.prefix_append _ _)) hk rfl rfl rfl
  | replies hk => exact shifts_proceed hrefl List.prefix_rfl hk rfl
  | @vacates k ending hk =>
    have hfinished := Desk.follows_finish k ending hd
    -- Freeing a place may have the intake resume, and somebody new come in at once.
    refine .frees ?_ hk (seated_set hfinished.notes hk)
    change Desk.Admits _ (s.settle _).desk
    rw [desk_settle]
    exact hfinished.admits
  | pays hdesk =>
    obtain rfl | ⟨line, rfl⟩ := hdesk
    · exact .stays hrefl ⟨[], (List.append_nil _).symm, (List.append_nil _).symm⟩
    · exact .stays (hrefl.note rfl) ⟨[.log line], rfl, (List.append_nil _).symm⟩
  | waits goal => exact shifts_desk (hrefl.same rfl rfl) (List.append_nil _).symm rfl
  | shutsDown =>
    have hstopped := hlasting.stopAll .shutdown none hrefl
    obtain ⟨more, hmore, hseats⟩ :=
      seated_settle ((Desk.lasting_upholds _).stopAll .shutdown none hupholds).notes
    refine .stays ?_ ⟨more, hmore, hseats⟩
    change Desk.Admits s.desk ((s.settle _).desk.wait .idle)
    rw [desk_settle]
    exact hstopped.same rfl rfl
  | hasShutDown line => exact shifts_desk (hrefl.note rfl) rfl rfl
  | publishes event =>
    exact shifts_settle (hlasting.publish event hrefl)
      ((Desk.lasting_upholds _).publish event hupholds).notes
  | enlists kind => exact shifts_desk (hrefl.same rfl rfl) (List.append_nil _).symm rfl
  | looks waiter => exact shifts_desk (hrefl.same rfl rfl) (List.append_nil _).symm rfl
  | letsGo =>
    obtain ⟨b, hdesk⟩ := letGo_desk s
    refine .stays ?_ ⟨[], ?_, (List.append_nil _).symm⟩
    · rw [hdesk]
      exact hrefl.same rfl rfl
    · rw [hdesk]
      exact (List.append_nil _).symm

/-! ## At any time -/

/-- As many places are taken as there are seats that hold one, and nobody is at work who is over. -/
structure Housed (s : Session) : Prop where
  heard : s.desk.intake.notes = []
  places : s.desk.intake.inProgress = s.seats.countP Seat.hasPlace
  busy : ∀ seat ∈ s.seats, seat.isBusy = true

theorem countP_seated {seats : List Seat} (hseats : Seated s v seats)
    (h : d.intake.inProgress = seats.countP Seat.hasPlace) (hnotes : d.notes = s.desk.notes)
    (hplaces : Desk.Admits d v.desk) :
    v.desk.intake.inProgress = v.seats.countP Seat.hasPlace := by
  obtain ⟨more, hmore, hseats⟩ := hseats
  have hcount := hplaces.inProgress
  have hwaiting : ((Desk.admitted more).map Seat.waiting).countP Seat.hasPlace =
      (Desk.admitted more).length := by
    rw [List.countP_map]
    exact List.countP_eq_length.mpr fun _ _ => rfl
  rw [hmore, hnotes, Desk.admitted_append, List.length_append] at hcount
  rw [hseats, List.countP_append, hwaiting]
  omega

theorem busy_seated {seats : List Seat} (hseats : Seated s v seats)
    (h : ∀ seat ∈ seats, seat.isBusy = true) : ∀ seat ∈ v.seats, seat.isBusy = true := by
  obtain ⟨more, -, hseats⟩ := hseats
  rw [hseats]
  refine List.forall_mem_append.mpr ⟨h, fun seat hseat => ?_⟩
  obtain ⟨opportunity, -, rfl⟩ := List.mem_map.mp hseat
  rfl

theorem Housed.take (h : s.Housed) (turn : Turn) : (s.take turn).Housed := by
  cases shifts_take h.heard turn with
  | stays hplaces hseats =>
    exact ⟨hplaces.heard, countP_seated hseats h.places rfl hplaces, busy_seated hseats h.busy⟩
  | @advances k old new hplaces hk hold hnew hbusy hseats =>
    have hset : s.desk.intake.inProgress = (s.seats.set k new).countP Seat.hasPlace :=
      h.places.trans (countP_set_advance hk (Seat.hasPlace_of_isOn hold) hnew).symm
    refine ⟨hplaces.heard, countP_seated hseats hset rfl hplaces, busy_seated hseats ?_⟩
    intro seat hseat
    rcases List.mem_or_eq_of_mem_set hseat with hmem | rfl
    · exact h.busy seat hmem
    · exact hbusy
  | @frees k ending hplaces hk hseats =>
    have hset : s.desk.relieved.intake.inProgress =
        (s.seats.set k .gone).countP Seat.hasPlace := by
      rw [countP_set_gone hk rfl, ← h.places]
      rfl
    refine ⟨hplaces.heard, countP_seated hseats hset rfl hplaces, busy_seated hseats ?_⟩
    intro seat hseat
    rcases List.mem_or_eq_of_mem_set hseat with hmem | rfl
    · exact h.busy seat hmem
    · rfl

theorem housed_played (setup : Setup) (wallet : SimulatedWallet) (turns : List Turn) :
    (played setup wallet turns).Housed := by
  induction turns using List.reverseRecOn with
  | nil =>
    change (create setup wallet).Housed
    rw [create_eq]
    exact ⟨rfl, rfl, fun _ h => nomatch h⟩
  | append_singleton turns turn ih =>
    rw [played_snoc]
    exact ih.take turn

end Session

end LaunchDesk
