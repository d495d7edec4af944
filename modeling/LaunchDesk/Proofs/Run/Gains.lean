import LaunchDesk.Proofs.Number.Quotient
import LaunchDesk.Proofs.Run.Watching

/-!
# Selling at a gain

A run that is to sell first computes its gain for the log. That works for every gain that is a
decimal in percent, up to the rounding of three operations, and for every loss. At a larger gain the
run crashes, and the position is not sold.
-/

namespace LaunchDesk

namespace Position

variable {p : Position} {price : Decimal}

/-- The change of a price against the entry price in percent, as an exact number. -/
def gain (p : Position) (price : Decimal) : ℚ :=
  (price.value - p.entryPrice.value) / p.entryPrice.value * 100

theorem entry_not_zero (hentry : 0 < p.entryPrice.value) : p.entryPrice.isZero = false := by
  by_contra hzero
  rw [Decimal.value_eq_zero (eq_true_of_ne_false hzero)] at hentry
  exact lt_irrefl _ hentry

/-- The difference is computed, and its share of the entry price is off by a tiny part. -/
theorem sub_entry_near (hentry : 0 < p.entryPrice.value) (hprice : 0 ≤ price.value) :
    ∃ change, price.sub p.entryPrice = .ok change ∧
      |(|change.value| / |p.entryPrice.value|) - |p.gain price| / 100| ≤
        |p.gain price| / 100 / 10 ^ 28 := by
  have hbelow := (abs_le.mp (Decimal.abs_value_le p.entryPrice)).2
  have habove := (abs_le.mp (Decimal.abs_value_le price)).2
  have hrange : |price.value - p.entryPrice.value| < Decimal.limit - 1 / 2 := by
    rw [abs_lt]
    constructor <;> linarith
  obtain ⟨change, hsub, hnear⟩ := Decimal.sub_near hrange
  refine ⟨change, hsub, ?_⟩
  have hgain : |p.gain price| / 100 =
      |price.value - p.entryPrice.value| / |p.entryPrice.value| := by
    rw [gain, abs_mul, abs_div, abs_of_pos (by norm_num : (0 : ℚ) < 100),
      mul_div_cancel_right₀ _ (by norm_num)]
  have hpos : 0 < |p.entryPrice.value| := abs_pos.mpr hentry.ne'
  rw [hgain, ← sub_div, abs_div, abs_abs, div_right_comm]
  gcongr
  exact (abs_abs_sub_abs_le _ _).trans hnear

theorem neg_hundred_le_gain (hentry : 0 < p.entryPrice.value) (hprice : 0 ≤ price.value) :
    -100 ≤ p.gain price := by
  have hloss : -1 ≤ (price.value - p.entryPrice.value) / p.entryPrice.value := by
    rw [le_div_iff₀ hentry]
    linarith
  unfold gain
  linarith

/-- A gain is computed if it is a decimal, up to the rounding on the way. -/
theorem changePercent_ok (hentry : 0 < p.entryPrice.value) (hprice : 0 ≤ price.value)
    (hgain : p.gain price ≤ 2 ^ 96 - 200) : ∃ change, p.changePercent price = .ok change := by
  have hmost : |p.gain price| ≤ 2 ^ 96 - 200 := by
    have hleast := neg_hundred_le_gain hentry hprice
    rw [abs_le]
    constructor <;> linarith
  obtain ⟨change, hsub, hnear⟩ := sub_entry_near hentry hprice
  have hshare := (abs_le.mp hnear).2
  rw [changePercent, entry_not_zero hentry, if_neg Bool.false_ne_true, hsub]
  rcases Decimal.div_spec change (entry_not_zero hentry) with ⟨ratio, hdiv, hratio⟩ | ⟨-, hlarge⟩
  -- The division is off by one at most, and a hundredfold of that is within the 200.
  · have hfits : |ratio.value| * 100 < Decimal.limit - 1 / 2 := by
      have hoff := (abs_le.mp hratio).2
      rw [Decimal.limit_eq]
      push_cast
      linarith
    obtain ⟨percent, hmul⟩ := Decimal.mul_hundred_ok_iff.mpr hfits
    refine ⟨percent, ?_⟩
    simp only [bind, Except.bind, percentOf, hdiv, hmul]
  · rw [Decimal.limit_eq] at hlarge
    push_cast at hlarge
    linarith

theorem changePercent_error (hentry : 0 < p.entryPrice.value) (hprice : 0 ≤ price.value)
    (hgain : 2 ^ 96 + 200 ≤ p.gain price) : ∃ fault, p.changePercent price = .error fault := by
  have hleast : 2 ^ 96 + 200 ≤ |p.gain price| := hgain.trans (le_abs_self _)
  obtain ⟨change, hsub, hnear⟩ := sub_entry_near hentry hprice
  have hshare := (abs_le.mp hnear).1
  rw [changePercent, entry_not_zero hentry, if_neg Bool.false_ne_true, hsub]
  rcases Decimal.div_spec change (entry_not_zero hentry) with ⟨ratio, hdiv, hratio⟩ | ⟨hdiv, -⟩
  · have hlarge : ¬ |ratio.value| * 100 < Decimal.limit - 1 / 2 := by
      have hoff := (abs_le.mp hratio).1
      rw [Decimal.limit_eq]
      push_cast
      linarith
    rw [← Decimal.mul_hundred_ok_iff] at hlarge
    cases hmul : ratio.mul .hundred with
    | ok percent => exact absurd ⟨percent, hmul⟩ hlarge
    | error fault =>
      refine ⟨fault, ?_⟩
      simp only [bind, Except.bind, percentOf, hdiv, hmul]
  · refine ⟨.division, ?_⟩
    simp only [bind, Except.bind, percentOf, hdiv]

end Position

namespace Run

variable {plan : Plan} {s : Run × List Effect} {t : Turn} {seen : Snapshot} {buy : Fill}
variable {position : Position} {decision : SellDecision}

/-- The reason of a sell that the strategy or a cancel asks for. -/
def reasonToSell (decision : SellDecision) : String :=
  if decision.sell then decision.reasonOr "strategy" else stoppedReason

theorem watch_asked (now : Moment) (r : Run) (buy : Fill) {cancelled : Bool}
    (hdecision : plan.strategy.shouldSell (position.observe seen.price) seen = .ok decision)
    (hasks : decision.sell = true ∨ cancelled = true) :
    watch plan cancelled now r seen buy position =
      trySell plan now r seen buy (position.observe seen.price) (reasonToSell decision) := by
  unfold watch reasonToSell
  simp only [hdecision]
  rcases hasks with hsell | rfl
  · rw [if_pos hsell, if_pos hsell]
  · split
    · rfl
    · rw [if_pos rfl]

theorem takeTurn_asked (hphase : s.1.phase = .fetching (.holding buy position))
    (hlook : t.reply = .snapshot (.ok seen))
    (hdecision : plan.strategy.shouldSell (position.observe seen.price) seen = .ok decision)
    (hasks : decision.sell = true ∨ t.cancelled = true) :
    let tried := trySell plan t.now s.1 seen buy (position.observe seen.price)
      (reasonToSell decision)
    takeTurn plan s t =
      (tried.1, s.2 ++ [.answer (.snapshot (.ok seen))] ++ effects plan tried) := by
  have hawaits : awaits plan s t = true := by
    rw [awaits, request?, hphase, hlook]
    rfl
  have hresume : resume plan t.cancelled t.now s.1 t.reply =
      watch plan t.cancelled t.now s.1 seen buy position := by
    simp only [resume, hphase, hlook, seeing]
  rw [takeTurn_awaited hawaits, hresume, watch_asked t.now s.1 buy hdecision hasks, hlook]
  rfl

/-- A run that looks at its position, and whose strategy sells or that is cancelled, asks for the
sell in the same turn, at every loss and at every gain that is a decimal in percent, but for the
rounding of it. At any larger gain it crashes in that turn and asks for nothing. -/
theorem sells_at_every_gain_in_range (plan : Plan) (s : Run × List Effect) (t : Turn)
    (hphase : s.1.phase = .fetching (.holding buy position))
    (hlook : t.reply = .snapshot (.ok seen)) (hentry : 0 < position.entryPrice.value)
    (hprice : 0 ≤ seen.price.value)
    (hdecision : plan.strategy.shouldSell (position.observe seen.price) seen = .ok decision)
    (hasks : decision.sell = true ∨ t.cancelled = true) :
    let next := takeTurn plan s t
    let order := makeSellOrder plan (position.observe seen.price) (reasonToSell decision)
    (position.gain seen.price ≤ 2 ^ 96 - 200 → next.1.request? plan = some (.sell order) ∧
      next.2 = s.2 ++ [.answer (.snapshot (.ok seen)), .call (.sell order)]) ∧
    (2 ^ 96 + 200 ≤ position.gain seen.price → (∃ fault, next.1.phase = .crashed fault) ∧
      next.2 = s.2 ++ [.answer (.snapshot (.ok seen))]) := by
  intro next order
  have hnext : next = _ := takeTurn_asked hphase hlook hdecision hasks
  -- The peak plays no part in the gain.
  have hsame : (position.observe seen.price).entryPrice = position.entryPrice := by
    unfold Position.observe
    split <;> rfl
  have hgain : (position.observe seen.price).gain seen.price = position.gain seen.price := by
    rw [Position.gain, Position.gain, hsame]
  rw [← hsame] at hentry
  rw [hnext, ← hgain]
  unfold trySell
  constructor
  · intro hrange
    obtain ⟨change, hchange⟩ := Position.changePercent_ok hentry hprice hrange
    simp only [hchange]
    exact ⟨rfl, List.append_assoc ..⟩
  · intro hbeyond
    obtain ⟨fault, hfault⟩ := Position.changePercent_error hentry hprice hbeyond
    simp only [hfault]
    exact ⟨⟨fault, rfl⟩, List.append_nil _⟩

/-- The market at a price, looked at in the second tick of a run. -/
def secondLook (price : Decimal) : Turn :=
  ⟨false, ⟨250, default⟩, .snapshot (.ok { (default : Snapshot) with price := price })⟩

/-- A position is bought at the least price there is. -/
def tinyEntryTurns : List Turn :=
  [⟨false, ⟨0, default⟩, .snapshot (.ok default)⟩,
    ⟨false, ⟨0, default⟩, .order (.ok { sampleFill .buy .one with price := .ofSmall 1 28 })⟩,
    ⟨false, ⟨0, default⟩, .stored (.ok ())⟩,
    ⟨false, ⟨250, default⟩, .rested⟩]

theorem value_ofSmall (mantissa : UInt32) {scale : Nat} (hscale : scale ≤ Decimal.maxScale) :
    (Decimal.ofSmall mantissa scale).value = mantissa.toNat / 10 ^ scale := by
  simp [Decimal.value, Decimal.ofSmall, hscale]

theorem tiny_entry_is_sold_below_one :
    let held := play eagerPlan false ⟨0, default⟩ tinyEntryTurns
    (∃ order, (takeTurn eagerPlan held (secondLook (.ofSmall 1 4))).1.request? eagerPlan =
      some (.sell order)) ∧
    ∃ fault, (takeTurn eagerPlan held (secondLook .one)).1.phase = .crashed fault := by
  intro held
  have hentry : (Decimal.ofSmall 1 28).value = 1 / 10 ^ 28 := value_ofSmall 1 (by decide)
  have hlow : (Decimal.ofSmall 1 4).value = 1 / 10 ^ 4 := value_ofSmall 1 (by decide)
  have hhigh : Decimal.one.value = 1 := by
    rw [Decimal.one, value_ofSmall 1 (by decide)]
    simp
  let bought : Fill := { sampleFill .buy .one with price := .ofSmall 1 28 }
  let opened := openPosition eagerPlan default bought
  have hphase : held.1.phase = .fetching (.holding bought opened) := rfl
  have hopened : opened.entryPrice = .ofSmall 1 28 := rfl
  have hpositive : 0 < opened.entryPrice.value := by rw [hopened, hentry]; positivity
  constructor
  · have hsells := (sells_at_every_gain_in_range eagerPlan held (secondLook (.ofSmall 1 4))
      hphase rfl hpositive (by rw [hlow]; positivity) rfl (.inl rfl)).1
    refine ⟨_, (hsells ?_).1⟩
    rw [Position.gain, hopened, hentry, hlow]
    norm_num
  · have hcrashes := (sells_at_every_gain_in_range eagerPlan held (secondLook .one)
      hphase rfl hpositive (by rw [hhigh]; positivity) rfl (.inl rfl)).2
    refine (hcrashes ?_).1
    rw [Position.gain, hopened, hentry, hhigh]
    norm_num

/-- A position that is worth a hundred percent of 10^28 is to be sold, and it is not: the gain
overflows, and the run is over. -/
theorem sell_is_lost_at_one :
    let held := play eagerPlan false ⟨0, default⟩ tinyEntryTurns
    let lost := takeTurn eagerPlan held (secondLook .one)
    (∃ buy position seen, held.1.phase = .fetching (.holding buy position) ∧
      position.isOpen = true ∧ Decimal.zero.lt position.entryPrice = true ∧
      (secondLook .one).reply = .snapshot (.ok seen) ∧ Decimal.zero.le seen.price = true ∧
      eagerPlan.strategy.shouldSell (position.observe seen.price) seen =
        .ok (.because "take_profit")) ∧
    lost.1.phase = .crashed .multiplication ∧ ∀ e ∈ lost.2, e.isSell = false := by
  intro held lost
  refine ⟨⟨_, _, _, rfl, rfl, ?_, rfl, ?_, rfl⟩, rfl, ?_⟩
  · decide +kernel
  · decide +kernel
  · have hall : (lost.2.all fun e => !e.isSell) = true := rfl
    exact fun e he => by simpa using List.all_eq_true.mp hall e he

end Run

end LaunchDesk
