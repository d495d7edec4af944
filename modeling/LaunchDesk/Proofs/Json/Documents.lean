import LaunchDesk.Outcome
import LaunchDesk.Proofs.Json.Returns
import LaunchDesk.Settings
import LaunchDesk.Stop
import LaunchDesk.Strategy

/-!
# Documents that are read back

What the desk stores and publishes is read back from the text that it was written as, decimals with
their scale. Only the sign of a zero is lost, which no comparison sees.
-/

namespace LaunchDesk

open Codec

/-! ## Names -/

theorem Side.returns (s : Side) : Returns inferInstance s s := by
  cases s <;> exact ⟨rfl, fun p _ => Arm.decode_plain rfl p⟩

theorem PositionStatus.returns (s : PositionStatus) : Returns inferInstance s s := by
  cases s <;> exact ⟨rfl, fun p _ => Arm.decode_plain rfl p⟩

theorem ExitReason.returns (r : ExitReason) : Returns inferInstance r r := by
  cases r <;> exact ⟨rfl, fun p _ => Arm.decode_plain rfl p⟩

theorem StopReason.returns (r : StopReason) : Returns inferInstance r r := by
  cases r with
  | other s =>
    refine ⟨rfl, fun p h => ?_⟩
    obtain ⟨q, henter, -⟩ := Place.enter_of_lt h
    exact Arm.decode_holding rfl henter rfl
  | _ => exact ⟨rfl, fun p _ => Arm.decode_plain rfl p⟩

theorem StopScope.returns (s : StopScope) : Returns inferInstance s s := by
  cases s with
  | intake => exact ⟨rfl, fun p _ => Arm.decode_plain rfl p⟩
  | all exclude =>
    have hexclude : Returns inferInstance exclude exclude := by
      have h := returns_list id fun b (_ : b ∈ exclude) => returns_botId b
      rwa [List.map_id] at h
    have hfields : StopScope.excludeFields.Return exclude exclude := ⟨hexclude, trivial⟩
    have hexact := StopScope.excludeFields.membersExact_members hfields
    refine ⟨(Bool.and_true _).trans hexact, fun p h => ?_⟩
    obtain ⟨q, henter, hroom⟩ := Place.enter_of_lt h
    have hinner := Nat.le_trans (Nat.le_max_left _ 0) hroom
    have hread := StopScope.excludeFields.decode_members q (by decide) hfields hinner
    exact Arm.decode_holding rfl henter (congrArg (Except.map _) hread)

/-! ## Actions -/

namespace Action

variable {p q : Place} {name : String}

theorem decodeParts_alone {a : Action} (henter : p.enter = .ok q)
    (hname : decodeName q (.string (some name)) = .ok (.alone a)) :
    decodeParts p (.object [(some "action", .string (some name))] true) = .ok a := by
  simp only [decodeParts, henter, bind, Except.bind, takeMembers, takeMember, hname]
  rfl

theorem decodeParts_needing {make : String → Action} (henter : p.enter = .ok q)
    (hname : decodeName q (.string (some name)) = .ok (.needing make)) (s : String) :
    decodeParts p
        (.object [(some "action", .string (some name)), (some "detail", .string (some s))] true) =
      .ok (make s) := by
  simp only [decodeParts, henter, bind, Except.bind, takeMembers, takeMember, hname]
  rfl

theorem returns (a : Action) : Returns inferInstance a a := by
  refine ⟨by cases a <;> rfl, fun p h => ?_⟩
  have hsome : 0 + 1 ≤ p.reach := by cases a <;> exact h
  obtain ⟨q, henter, -⟩ := Place.enter_of_lt hsome
  cases a with
  | buyFailed s => exact decodeParts_needing henter (Arm.decode_plain rfl q) s
  | sellSignal s => exact decodeParts_needing henter (Arm.decode_plain rfl q) s
  | sellFailed s => exact decodeParts_needing henter (Arm.decode_plain rfl q) s
  | snapshotFailed s => exact decodeParts_needing henter (Arm.decode_plain rfl q) s
  | _ => exact decodeParts_alone henter (Arm.decode_plain rfl q)

end Action

/-! ## Parts of outcomes -/

/-- The fill with no sign on a zero. -/
def Fill.standard (f : Fill) : Fill :=
  { f with
    tokenAmount := f.tokenAmount.standard
    price := f.price.standard
    grossAmount := f.grossAmount.standard
    fees := f.fees.standard
    netAmount := f.netAmount.standard }

/-- The metadata are free of floating-point numbers, and in the order of their map. -/
structure Fill.Writable (f : Fill) : Prop where
  exact : f.metadata.isExact = true
  ordered : f.metadata.isOrdered = true
  executed : f.executedAt.HasFourDigitYear

theorem Fill.returns (f : Fill) (h : f.Writable) : Returns inferInstance f f.standard :=
  Fill.record.returns (by decide) rfl
    ⟨returns_uuid f.id, f.side.returns, returns_string f.mint, returns_decimal f.tokenAmount,
      returns_decimal f.price, returns_decimal f.grossAmount, returns_decimal f.fees,
      returns_decimal f.netAmount, returns_string f.signature,
      returns_json f.metadata h.exact h.ordered, returns_stamp f.executedAt h.executed, trivial⟩

def Snapshot.standard (s : Snapshot) : Snapshot :=
  { s with
    price := s.price.standard
    marketCap := s.marketCap.standard
    bondingCurveProgress := s.bondingCurveProgress.standard
    topHoldersPercent := s.topHoldersPercent.standard }

theorem Snapshot.returns (s : Snapshot) (h : s.takenAt.HasFourDigitYear) :
    Returns inferInstance s s.standard :=
  Snapshot.record.returns (by decide) rfl
    ⟨returns_string s.mint, returns_decimal s.price, returns_decimal s.marketCap,
      returns_decimal s.bondingCurveProgress, returns_decimal s.topHoldersPercent,
      returns_uint32 s.holderCount, returns_stamp s.takenAt h, trivial⟩

def Entry.standard (e : Entry) : Entry := { e with snapshot := e.snapshot.map Snapshot.standard }

structure Entry.Writable (e : Entry) : Prop where
  time : e.time.HasFourDigitYear
  snapshot : ∀ s ∈ e.snapshot, s.takenAt.HasFourDigitYear

theorem Entry.returns (e : Entry) (h : e.Writable) : Returns inferInstance e e.standard :=
  have hsnapshot : Returns inferInstance e.snapshot (e.snapshot.map Snapshot.standard) :=
    returns_option Snapshot.standard e.snapshot (fun s hs => s.returns (h.snapshot s hs))
      fun _ => nofun
  Entry.record.returns (by decide) rfl
    ⟨returns_uint64 e.tick, returns_stamp e.time h.time, hsnapshot, e.action.returns, trivial⟩

theorem returns_history (history : List Entry) (h : ∀ e ∈ history, e.Writable) :
    Returns inferInstance history (history.map Entry.standard) :=
  returns_list Entry.standard fun e he => e.returns (h e he)

/-! ## Outcomes -/

def RoundTrip.standard (t : RoundTrip) : RoundTrip :=
  { t with
    buy := t.buy.standard
    sell := t.sell.standard
    realizedPnl := t.realizedPnl.standard
    history := t.history.map Entry.standard }

structure RoundTrip.Writable (t : RoundTrip) : Prop where
  buy : t.buy.Writable
  sell : t.sell.Writable
  history : ∀ e ∈ t.history, e.Writable

theorem RoundTrip.returns (t : RoundTrip) (h : t.Writable) : Returns inferInstance t t.standard :=
  RoundTrip.record.returns (by decide) rfl
    ⟨returns_botId t.botId, returns_string t.mint, t.buy.returns h.buy, t.sell.returns h.sell,
      returns_decimal t.realizedPnl, returns_string t.sellReason,
      returns_history t.history h.history, trivial⟩

def Departure.standard (d : Departure) : Departure :=
  { d with history := d.history.map Entry.standard }

theorem Departure.returns (d : Departure) (h : ∀ e ∈ d.history, e.Writable) :
    Returns inferInstance d d.standard :=
  Departure.record.returns (by decide) rfl
    ⟨returns_botId d.botId, returns_string d.mint, d.reason.returns,
      returns_history d.history h, trivial⟩

namespace Outcome

variable {p q : Place} {name : String} {ms : List (String × Json)}

/-- The outcome with no sign on a zero. -/
def standard : Outcome → Outcome
  | .completed t => .completed t.standard
  | .exited d => .exited d.standard

/-- The outcome holds nothing that a document cannot. -/
def Writable : Outcome → Prop
  | .completed t => t.Writable
  | .exited d => ∀ e ∈ d.history, e.Writable

theorem takeMembers_others (kind : Kind) (ms : List (String × Json))
    (others : List (Option String × Doc)) (hkeys : "type" ∉ ms.map (·.1))
    (hdepth : Json.membersDepth ms ≤ p.reach) :
    takeMembers p (some kind) others (Doc.ofMembers ms) =
      .ok (some kind, others.reverse ++ Doc.ofMembers ms) := by
  induction ms generalizing others with
  | nil => rw [Doc.ofMembers, takeMembers, List.append_nil]
  | cons m ms ih =>
    obtain ⟨key, value⟩ := m
    rw [List.map_cons, List.mem_cons, not_or] at hkeys
    rw [Json.membersDepth] at hdepth
    have hform : (p.held || ((Doc.ofJson value).toJson? p.room).isSome) = true := by
      unfold Place.reach at hdepth
      split at hdepth
      · next hheld => rw [hheld, Bool.true_or]
      · obtain ⟨k, hk, -⟩ := Doc.toJson_ofJson p.room value (by omega)
        rw [hk, Option.isSome_some, Bool.or_true]
    rw [Doc.ofMembers, takeMembers, if_pos hform, ih _ hkeys.2 (by omega), List.reverse_cons,
      List.append_assoc, List.singleton_append]
    rintro rfl
    exact hkeys.1 rfl

theorem decodeTagged_members {kind : Kind} (henter : p.enter = .ok q)
    (hkind : kinds.lookup name = some kind) (hkeys : "type" ∉ ms.map (·.1))
    (hdepth : Json.membersDepth ms ≤ q.reach) :
    decodeTagged p (.object ((some "type", .string (some name)) :: Doc.ofMembers ms) true) =
      decodeKept q kind (.object (Doc.ofMembers ms) true) := by
  have hothers := takeMembers_others kind ms [] hkeys hdepth
  simp only [decodeTagged, henter, bind, Except.bind, takeMembers, decodeKind, hkind, hothers]
  rfl

theorem returns_tagged {σ : Type} {s t : σ} {o back : Outcome} {kind : Kind} (r : Record σ)
    (hrecord : r.codec.Returns s t)
    (hencode : encodeTagged o = .object (("type", .string name) :: r.fields.members s))
    (hkind : kinds.lookup name = some kind) (hkeys : "type" ∉ r.fields.names)
    (hkept : ∀ q d, r.decode { q with held := true } d = .ok t → decodeKept q kind d = .ok back) :
    Returns inferInstance o back where
  whole := by
    show (encodeTagged o).isExact = true
    rw [hencode]
    exact hrecord.whole
  reads p hdepth := by
    have hmembers : (encodeTagged o).depth = Json.membersDepth (r.fields.members s) + 1 := by
      rw [hencode]
      simp [Json.depth, Json.membersDepth]
    change (encodeTagged o).depth ≤ p.reach at hdepth
    show decodeTagged p (Doc.ofJson (encodeTagged o)) = .ok back
    rw [hmembers] at hdepth
    obtain ⟨q, henter, hroom⟩ := Place.enter_of_lt hdepth
    rw [← r.fields.keys_members] at hkeys
    -- The record is read where the members are held, so the room that is left does not matter.
    rw [hencode, Doc.ofJson, Doc.ofMembers, Doc.ofJson,
      decodeTagged_members henter hkind hkeys hroom, ← Record.ofJson_encode]
    refine hkept q _ (hrecord.reads _ ?_)
    show (r.encode s).depth ≤ _
    rw [Place.reach_of_held rfl, Record.depth_encode]
    exact Nat.le_trans hdepth p.reach_le

theorem returns (o : Outcome) (h : o.Writable) : Returns inferInstance o o.standard := by
  cases o with
  | completed t =>
    refine returns_tagged RoundTrip.record (t.returns h) rfl rfl (by decide) fun q d hread => ?_
    exact congrArg (Except.map completed) hread
  | exited d =>
    refine returns_tagged Departure.record (d.returns h) rfl rfl (by decide) fun q d hread => ?_
    exact congrArg (Except.map exited) hread

end Outcome

/-! ## Positions -/

def Position.standard (p : Position) : Position :=
  { p with
    entryPrice := p.entryPrice.standard
    tokenAmount := p.tokenAmount.standard
    cost := p.cost.standard
    stopLossPercent := p.stopLossPercent.map Decimal.standard
    takeProfitPercent := p.takeProfitPercent.map Decimal.standard
    trailingStopPercent := p.trailingStopPercent.map Decimal.standard
    peakPrice := p.peakPrice.standard }

structure Position.Writable (p : Position) : Prop where
  opened : p.openedAt.HasFourDigitYear
  closed : ∀ t ∈ p.closedAt, t.HasFourDigitYear

theorem returns_percent (o : Option Decimal) : Returns inferInstance o (o.map Decimal.standard) :=
  returns_option Decimal.standard o (fun d _ => returns_decimal d) fun _ => nofun

theorem Position.returns (p : Position) (h : p.Writable) : Returns inferInstance p p.standard :=
  have hclosed : Returns inferInstance p.closedAt p.closedAt :=
    returns_option_self p.closedAt (fun t ht => returns_stamp t (h.closed t ht)) fun _ => nofun
  Position.record.returns (by decide) rfl
    ⟨returns_uuid p.tradeId, returns_botId p.botId, returns_string p.mint,
      returns_decimal p.entryPrice, returns_decimal p.tokenAmount, returns_decimal p.cost,
      returns_percent p.stopLossPercent, returns_percent p.takeProfitPercent,
      returns_percent p.trailingStopPercent, returns_decimal p.peakPrice, p.status.returns,
      returns_stamp p.openedAt h.opened, hclosed, trivial⟩

theorem Position.within : Within (inferInstance : Codec Position) 1 :=
  Position.record.within
    ⟨within_uuid, within_botId, within_string, within_decimal, within_decimal, within_decimal,
      within_option within_decimal, within_option within_decimal, within_option within_decimal,
      within_decimal, fun _ => Nat.zero_le 0, within_stamp, within_option within_stamp, trivial⟩

def Closure.standard (c : Closure) : Closure :=
  { c with exitPrice := c.exitPrice.standard, realizedPnl := c.realizedPnl.standard }

theorem Closure.returns (c : Closure) (h : c.closedAt.HasFourDigitYear) :
    Returns inferInstance c c.standard :=
  Closure.record.returns (by decide) rfl
    ⟨returns_decimal c.exitPrice, returns_decimal c.realizedPnl, returns_string c.reason,
      returns_string c.signature, returns_stamp c.closedAt h, trivial⟩

theorem Closure.within : Within (inferInstance : Codec Closure) 1 :=
  Closure.record.within
    ⟨within_decimal, within_decimal, within_string, within_string, within_stamp, trivial⟩

def Thresholds.standard (t : Thresholds) : Thresholds where
  stopLossPercent := t.stopLossPercent.map Decimal.standard
  takeProfitPercent := t.takeProfitPercent.map Decimal.standard
  trailingStopPercent := t.trailingStopPercent.map Decimal.standard

theorem Thresholds.returns (t : Thresholds) : Returns inferInstance t t.standard :=
  Thresholds.record.returns (by decide) rfl
    ⟨returns_percent t.stopLossPercent, returns_percent t.takeProfitPercent,
      returns_percent t.trailingStopPercent, trivial⟩

theorem Thresholds.within : Within (inferInstance : Codec Thresholds) 1 :=
  Thresholds.record.within
    ⟨within_option within_decimal, within_option within_decimal, within_option within_decimal,
      trivial⟩

/-! ## Reports, opportunities and requests -/

def Report.standard (r : Report) : Report := { r with realizedPnl := r.realizedPnl.standard }

theorem Report.returns (r : Report) : Returns inferInstance r r.standard :=
  Report.record.returns (by decide) rfl
    ⟨returns_botId r.botId, returns_string r.mint, returns_uint64 r.ticks,
      returns_uint64 r.durationMs, returns_decimal r.realizedPnl, trivial⟩

theorem Report.within : Within (inferInstance : Codec Report) 1 :=
  Report.record.within
    ⟨within_botId, within_string, within_uint64, within_uint64, within_decimal, trivial⟩

theorem Opportunity.returns (o : Opportunity) (h : o.createdAt.HasFourDigitYear) :
    Returns inferInstance o o :=
  have hcurve : Returns inferInstance o.associatedBondingCurve o.associatedBondingCurve :=
    returns_option_self o.associatedBondingCurve (fun s _ => returns_string s) fun _ => nofun
  Opportunity.record.returns (by decide) rfl
    ⟨returns_string o.mint, returns_string o.creator, returns_string o.bondingCurve, hcurve,
      returns_string o.name, returns_string o.symbol, returns_stamp o.createdAt h, trivial⟩

theorem Opportunity.within : Within (inferInstance : Codec Opportunity) 1 :=
  Opportunity.record.within
    ⟨within_string, within_string, within_string, within_option within_string, within_string,
      within_string, within_stamp, trivial⟩

theorem StopRequest.returns (r : StopRequest) : Returns inferInstance r r :=
  StopRequest.record.returns (by decide) rfl ⟨r.reason.returns, r.scope.returns, trivial⟩

theorem StopReason.within : Within (inferInstance : Codec StopReason) 3 := by
  intro r
  cases r with
  | other s => exact Nat.le_of_ble_eq_true rfl
  | _ => exact Nat.zero_le 3

theorem StopScope.within : Within (inferInstance : Codec StopScope) 3
  | .intake => Nat.zero_le 3
  | .all exclude => by
    have hlist : StopScope.excludeFields.Within 1 := ⟨within_list within_botId, trivial⟩
    have hfields := StopScope.excludeFields.membersDepth_le hlist exclude
    exact Nat.succ_le_succ (Nat.max_le.mpr ⟨Nat.succ_le_succ hfields, Nat.zero_le _⟩)

theorem StopRequest.within : Within (inferInstance : Codec StopRequest) 4 :=
  StopRequest.record.within ⟨StopReason.within, StopScope.within, trivial⟩

/-! ## Settings -/

def TradingSettings.standard (s : TradingSettings) : TradingSettings :=
  { s with buyAmount := s.buyAmount.standard }

theorem TradingSettings.returns (s : TradingSettings) : Returns inferInstance s s.standard :=
  TradingSettings.record.returns (by decide) rfl
    ⟨returns_uint64 s.buyPollIntervalMs, returns_uint64 s.sellPollIntervalMs,
      returns_uint64 s.maxWaitAfterDecisionMs, returns_decimal s.buyAmount,
      returns_uint32 s.slippageBps, returns_uint64 s.salvageTimeoutMs, returns_bool s.simulate,
      trivial⟩

theorem AdmissionSettings.returns (s : AdmissionSettings) : Returns inferInstance s s :=
  have hmost : Returns inferInstance s.maxConcurrent s.maxConcurrent :=
    returns_option_self s.maxConcurrent (fun n _ => returns_uint64 n)
      fun n => nat_ne_null n.toNat_lt
  AdmissionSettings.record.returns (by decide) rfl ⟨hmost, trivial⟩

theorem returns_limit (o : Option UInt32) : Returns inferInstance o o :=
  returns_option_self o (fun n _ => returns_uint32 n)
    fun n => nat_ne_null (Nat.lt_trans n.toNat_lt (by decide))

def Limits.standard (l : Limits) : Limits :=
  { l with minWalletBalance := l.minWalletBalance.map Decimal.standard }

theorem Limits.returns (l : Limits) : Returns inferInstance l l.standard :=
  Limits.record.returns (by decide) rfl
    ⟨returns_limit l.maxOpenPositions, returns_limit l.maxFullTrades,
      returns_percent l.minWalletBalance, trivial⟩

theorem GeneralSettings.returns (s : GeneralSettings) : Returns inferInstance s s :=
  GeneralSettings.record.returns (by decide) rfl ⟨returns_string s.logLevel, trivial⟩

def Settings.standard (s : Settings) : Settings :=
  { s with trading := s.trading.standard, limits := s.limits.standard }

theorem Settings.returns (s : Settings) : Returns inferInstance s s.standard :=
  Settings.record.returns (by decide) rfl
    ⟨s.trading.returns, s.admission.returns, s.limits.returns, s.general.returns, trivial⟩

theorem Settings.within : Within (inferInstance : Codec Settings) 2 :=
  Settings.record.within
    ⟨TradingSettings.record.within
        ⟨within_uint64, within_uint64, within_uint64, within_decimal, within_uint32,
          within_uint64, within_bool, trivial⟩,
      AdmissionSettings.record.within ⟨within_option within_uint64, trivial⟩,
      Limits.record.within
        ⟨within_option within_uint32, within_option within_uint32, within_option within_decimal,
          trivial⟩,
      GeneralSettings.record.within ⟨within_string, trivial⟩, trivial⟩

/-! ## Texts -/

/-- Every document is read back from its text. Only an outcome may be nested too deep, by the
metadata of its fills. A decimal keeps its scale; the one that changes is a zero with a sign, and it
stays the same number. -/
theorem documents_read_back :
    (∀ o : Outcome, o.Writable → (encode o).depth ≤ 127 →
      Codec.read (encode o).text = .ok o.standard) ∧
    (∀ p : Position, p.Writable → Codec.read (encode p).text = .ok p.standard) ∧
    (∀ c : Closure, c.closedAt.HasFourDigitYear →
      Codec.read (encode c).text = .ok c.standard) ∧
    (∀ r : Report, Codec.read (encode r).text = .ok r.standard) ∧
    (∀ o : Opportunity, o.createdAt.HasFourDigitYear → Codec.read (encode o).text = .ok o) ∧
    (∀ r : StopRequest, Codec.read (encode r).text = .ok r) ∧
    (∀ t : Thresholds, Codec.read (encode t).text = .ok t.standard) ∧
    (∀ s : Settings, Codec.read (encode s).text = .ok s.standard) ∧
    ∀ d : Decimal, d.standard.scale = d.scale ∧ d.standard.cmp d = .eq ∧
      ((d.negative = true → d.mantissa ≠ 0) → d.standard = d) := by
  refine ⟨fun o h hdepth => read_text (o.returns h) hdepth, fun p h => ?_, fun c h => ?_,
    fun r => ?_, fun o h => ?_, fun r => ?_, fun t => ?_, fun s => ?_,
    fun d => ⟨rfl, d.cmp_standard, d.standard_of_signed⟩⟩
  · exact read_text (p.returns h) (Nat.le_trans (Position.within p) (by decide))
  · exact read_text (c.returns h) (Nat.le_trans (Closure.within c) (by decide))
  · exact read_text r.returns (Nat.le_trans (Report.within r) (by decide))
  · exact read_text (o.returns h) (Nat.le_trans (Opportunity.within o) (by decide))
  · exact read_text r.returns (Nat.le_trans (StopRequest.within r) (by decide))
  · exact read_text t.returns (Nat.le_trans (Thresholds.within t) (by decide))
  · exact read_text s.returns (Nat.le_trans (Settings.within s) (by decide))

def sampleTrade : RoundTrip where
  botId := default
  mint := "mint"
  buy :=
    { id := default
      side := .buy
      mint := "mint"
      tokenAmount := .ofSmall 2500 1
      price := .ofSmall 2 4
      grossAmount := .ofSmall 500 4
      fees := .ofSmall 0 4
      netAmount := .ofSmall 500 4
      signature := "first"
      metadata := .object [("labels", .array [.string "new", .null]), ("strategy", .string "early")]
      executedAt := default }
  sell :=
    { id := default
      side := .sell
      mint := "mint"
      tokenAmount := .ofSmall 2500 1
      price := .ofSmall 1 4
      grossAmount := .ofSmall 250 4
      fees := .ofSmall 0 4
      netAmount := .ofSmall 250 4
      signature := "second"
      metadata := .null
      executedAt := default }
  realizedPnl := (Decimal.ofSmall 250 4).neg
  sellReason := "stop_loss"
  history :=
    [{ tick := 1, time := default, snapshot := none, action := .bought },
      { tick := 5, time := default, snapshot := some default, action := .sellSignal "stop_loss" }]

def samplePosition : Position where
  tradeId := default
  botId := default
  mint := "mint"
  entryPrice := .ofSmall 2 4
  tokenAmount := .ofSmall 2500 1
  cost := .ofSmall 500 4
  stopLossPercent := some (.ofSmall 300 1)
  takeProfitPercent := none
  trailingStopPercent := none
  peakPrice := .ofSmall 2 4
  status := .closed
  openedAt := default
  closedAt := some default

def sampleClosure : Closure where
  exitPrice := .ofSmall 1 4
  realizedPnl := (Decimal.ofSmall 250 4).neg
  reason := "stop_loss"
  signature := "second"
  closedAt := default

theorem sample_documents_read_back :
    Codec.read (encode (Outcome.completed sampleTrade)).text = .ok (Outcome.completed sampleTrade) ∧
      Codec.read (encode samplePosition).text = .ok samplePosition ∧
      Codec.read (encode sampleClosure).text = .ok sampleClosure ∧
      Codec.read (encode (default : Opportunity)).text = .ok (default : Opportunity) := by
  obtain ⟨outcome, position, closure, -, opportunity, -⟩ := documents_read_back
  have hbuy : sampleTrade.buy.Writable := ⟨by decide, by decide, by decide⟩
  have hsell : sampleTrade.sell.Writable := ⟨by decide, by decide, by decide⟩
  have hhistory : ∀ e ∈ sampleTrade.history, e.Writable := by
    rintro e (_ | ⟨_, _ | ⟨_, ⟨⟩⟩⟩) <;> exact ⟨by decide, by decide⟩
  exact ⟨outcome (.completed sampleTrade) ⟨hbuy, hsell, hhistory⟩ (by decide),
    position samplePosition ⟨by decide, by decide⟩, closure sampleClosure (by decide),
    opportunity default (by decide)⟩

end LaunchDesk
