import LaunchDesk.Outcome
import Mathlib.Data.List.Induction

/-!
# Pages of a history

A tick leaves one page in the history of a run: one or two actions, of which there are nine kinds.
`diary` writes pages down one after the other, each with the number of its tick, and `Tells` says
which pages a run may have written by the way it ends.
-/

namespace LaunchDesk

inductive Page
  | observed
  | snapshotFailed (why : String)
  | exitSignal
  | exitIgnored
  | cancelled
  | buyFailed (why : String)
  | bought
  | sellFailed (reason why : String)
  | sold (reason : String)
deriving DecidableEq

namespace Page

def actions : Page → List Action
  | .observed => [.observed]
  | .snapshotFailed why => [.snapshotFailed why]
  | .exitSignal => [.exitSignal]
  | .exitIgnored => [.exitIgnored]
  | .cancelled => [.cancelled]
  | .buyFailed why => [.buySignal, .buyFailed why]
  | .bought => [.buySignal, .bought]
  | .sellFailed reason why => [.sellSignal reason, .sellFailed why]
  | .sold reason => [.sellSignal reason, .sold]

theorem actions_ne_nil (page : Page) : page.actions ≠ [] := by
  cases page <;> simp [actions]

/-- A tick that leaves everything as it is. -/
def isQuiet : Page → Bool
  | .observed | .snapshotFailed _ => true
  | _ => false

/-- A tick before a buy. -/
def isIdle : Page → Bool
  | .buyFailed _ => true
  | page => page.isQuiet

/-- A tick with a position. -/
def isHeld : Page → Bool
  | .exitIgnored | .sellFailed _ _ => true
  | page => page.isQuiet

theorem isIdle_of_isQuiet {page : Page} (h : page.isQuiet) : page.isIdle := by
  cases page <;> simp_all [isQuiet, isIdle]

theorem isHeld_of_isQuiet {page : Page} (h : page.isQuiet) : page.isHeld := by
  cases page <;> simp_all [isQuiet, isHeld]

/-! ## The diary -/

/-- The actions of the pages with the numbers of their ticks, which begin with 1. -/
def diary (pages : List Page) : List (UInt64 × Action) :=
  (pages.zipIdx 1).flatMap fun (page, tick) => page.actions.map fun a => (UInt64.ofNat tick, a)

variable {pages : List Page}

theorem diary_snoc (pages : List Page) (page : Page) :
    diary (pages ++ [page]) =
      diary pages ++ page.actions.map fun a => (UInt64.ofNat (pages.length + 1), a) := by
  unfold diary
  rw [List.zipIdx_append, List.flatMap_append, Nat.add_comm 1]
  simp

def ticks (pages : List Page) : List Nat := (diary pages).map (·.1.toNat)

theorem ticks_snoc (pages : List Page) (page : Page) (h : pages.length + 1 < UInt64.size) :
    ticks (pages ++ [page]) =
      ticks pages ++ List.replicate page.actions.length (pages.length + 1) := by
  have htick : (UInt64.ofNat (pages.length + 1)).toNat = pages.length + 1 :=
    UInt64.toNat_ofNat_of_lt' h
  unfold ticks
  rw [diary_snoc, List.map_append, List.map_map]
  congr 1
  rw [List.eq_replicate_iff]
  refine ⟨by simp, ?_⟩
  intro k hk
  obtain ⟨a, -, rfl⟩ := List.mem_map.mp hk
  exact htick

theorem mem_ticks_iff (h : pages.length < UInt64.size) (k : Nat) :
    k ∈ ticks pages ↔ 1 ≤ k ∧ k ≤ pages.length := by
  induction pages using List.reverseRecOn with
  | nil =>
    have hnone : ticks [] = [] := rfl
    rw [hnone, List.length_nil]
    constructor
    · intro hk
      cases hk
    · omega
  | append_singleton pages page ih =>
    rw [List.length_append, List.length_singleton] at h
    have hactions := page.actions_ne_nil
    rw [ticks_snoc pages page h, List.mem_append, ih (by omega), List.mem_replicate,
      List.length_append, List.length_singleton, ne_eq, List.length_eq_zero_iff]
    constructor
    · rintro (hold | ⟨-, rfl⟩)
      · omega
      · omega
    · intro hk
      by_cases hlast : k = pages.length + 1
      · exact .inr ⟨hactions, hlast⟩
      · exact .inl (by omega)

theorem ticks_sorted (h : pages.length < UInt64.size) : (ticks pages).Pairwise (· ≤ ·) := by
  induction pages using List.reverseRecOn with
  | nil => exact List.Pairwise.nil
  | append_singleton pages page ih =>
    rw [List.length_append, List.length_singleton] at h
    have hbefore : pages.length < UInt64.size := by omega
    rw [ticks_snoc pages page h, List.pairwise_append]
    refine ⟨ih hbefore, by simp [List.pairwise_replicate], ?_⟩
    -- The new page has the number after all the old ones.
    intro j hj k hk
    have hle := ((mem_ticks_iff hbefore j).mp hj).2
    have hlast := List.eq_of_mem_replicate hk
    omega

/-! ## Whole diaries -/

/-- It was decided to leave, and nothing happened since. -/
def Left (pages : List Page) : Prop :=
  ∃ before after : List Page,
    before.all isIdle ∧ after.all isQuiet ∧ pages = before ++ .exitSignal :: after

/-- There was one buy, and no sell since. -/
def Bought (pages : List Page) : Prop :=
  ∃ before after : List Page,
    before.all isIdle ∧ after.all isHeld ∧ pages = before ++ .bought :: after

/-- The pages of a run that ends with an outcome. -/
def Recounts : Outcome → List Page → Prop
  | .completed trade, pages =>
    ∃ earlier, Bought earlier ∧ pages = earlier ++ [.sold trade.sellReason]
  | .exited departure, pages =>
    match departure.reason with
    | .strategyExit => Left pages
    | .stopped => ∃ earlier, (earlier.all isIdle ∨ Left earlier) ∧ pages = earlier ++ [.cancelled]

theorem idle_snoc {page : Page} (h : pages.all isIdle) (hpage : page.isIdle) :
    (pages ++ [page]).all isIdle := by
  rw [List.all_append, h]
  simpa using hpage

theorem Left.snoc {page : Page} (h : Left pages) (hpage : page.isQuiet) :
    Left (pages ++ [page]) := by
  obtain ⟨before, after, hbefore, hafter, rfl⟩ := h
  refine ⟨before, after ++ [page], hbefore, ?_, by simp⟩
  rw [List.all_append, hafter]
  simpa using hpage

theorem Bought.snoc {page : Page} (h : Bought pages) (hpage : page.isHeld) :
    Bought (pages ++ [page]) := by
  obtain ⟨before, after, hbefore, hafter, rfl⟩ := h
  refine ⟨before, after ++ [page], hbefore, ?_, by simp⟩
  rw [List.all_append, hafter]
  simpa using hpage

theorem left_of_idle (h : pages.all isIdle) : Left (pages ++ [.exitSignal]) :=
  ⟨pages, [], h, rfl, rfl⟩

theorem bought_of_idle (h : pages.all isIdle) : Bought (pages ++ [.bought]) :=
  ⟨pages, [], h, rfl, rfl⟩

end Page

end LaunchDesk
