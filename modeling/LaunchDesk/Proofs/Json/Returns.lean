import LaunchDesk.BotId
import LaunchDesk.Proofs.Json.Text

/-!
# Codecs that return

A codec returns a value when it reads what it has written for it. A record returns when each of its
fields does, whatever their number. What is read may differ from what was written, and does for a
zero that has a sign.
-/

namespace LaunchDesk

/-! ## Nesting -/

namespace Json

mutual

/-- How many containers are inside each other. -/
def depth : Json → Nat
  | .array items => itemsDepth items + 1
  | .object members => membersDepth members + 1
  | _ => 0

def itemsDepth : List Json → Nat
  | [] => 0
  | j :: js => max (depth j) (itemsDepth js)

def membersDepth : List (String × Json) → Nat
  | [] => 0
  | (_, j) :: ms => max (depth j) (membersDepth ms)

end

mutual

/-- The keys of every object are in increasing order. -/
def isOrdered : Json → Bool
  | .array items => allOrdered items
  | .object members =>
    membersOrdered members && decide ((members.map (·.1)).Pairwise (· < ·))
  | _ => true

def allOrdered : List Json → Bool
  | [] => true
  | j :: js => isOrdered j && allOrdered js

def membersOrdered : List (String × Json) → Bool
  | [] => true
  | (_, j) :: ms => isOrdered j && membersOrdered ms

end

variable {key : String} {value : Json} {ms acc : List (String × Json)}

theorem insertMember_last (h : ∀ m ∈ acc, m.1 < key) :
    insertMember key value acc = acc ++ [(key, value)] := by
  induction acc with
  | nil => rfl
  | cons m acc ih =>
    have hlt := h m List.mem_cons_self
    rw [insertMember, if_neg (String.lt_asymm hlt), if_neg (String.ne_of_lt hlt).symm,
      ih fun m hm => h m (List.mem_cons_of_mem _ hm), List.cons_append]

theorem foldl_insertMember (h : ((acc ++ ms).map (·.1)).Pairwise (· < ·)) :
    ms.foldl (fun acc m => insertMember m.1 m.2 acc) acc = acc ++ ms := by
  induction ms generalizing acc with
  | nil => exact (List.append_nil acc).symm
  | cons m ms ih =>
    have hlast : ∀ n ∈ acc, n.1 < m.1 := by
      intro n hn
      rw [List.map_append, List.pairwise_append] at h
      exact h.2.2 n.1 (List.mem_map_of_mem hn) m.1 List.mem_cons_self
    rw [List.foldl_cons, insertMember_last hlast, ih]
    · simp
    · simpa using h

end Json

namespace Doc

mutual

/-- The tree of a value holds a value, and the same one if it is in order. -/
theorem toJson_ofJson (room : Nat) (j : Json) (h : j.depth ≤ room) :
    ∃ k, (ofJson j).toJson? room = some k ∧ (j.isOrdered = true → k = j) := by
  match j with
  | .null => exact ⟨_, rfl, fun _ => rfl⟩
  | .bool b => exact ⟨_, rfl, fun _ => rfl⟩
  | .number n => exact ⟨_, rfl, fun _ => rfl⟩
  | .string s => exact ⟨_, rfl, fun _ => rfl⟩
  | .array items =>
    rw [Json.depth] at h
    obtain ⟨ks, hks, hsame⟩ := itemsToJson_ofItems (room - 1) items (by omega)
    refine ⟨.array ks, ?_, ?_⟩
    · rw [ofJson, toJson?, if_neg (by simp; omega), hks]
      rfl
    · intro hordered
      rw [hsame hordered]
  | .object members =>
    rw [Json.depth] at h
    obtain ⟨ks, hks, hsame⟩ := membersToJson_ofMembers (room - 1) members (by omega)
    refine ⟨.object (ks.foldl (fun acc m => Json.insertMember m.1 m.2 acc) []), ?_, ?_⟩
    · rw [ofJson, toJson?, if_neg (by simp; omega), hks]
      rfl
    · intro hordered
      rw [Json.isOrdered, Bool.and_eq_true, decide_eq_true_eq] at hordered
      rw [hsame hordered.1]
      exact congrArg Json.object (Json.foldl_insertMember hordered.2)

theorem itemsToJson_ofItems (room : Nat) (js : List Json) (h : Json.itemsDepth js ≤ room) :
    ∃ ks, itemsToJson? room (ofItems js) = some ks ∧ (Json.allOrdered js = true → ks = js) := by
  match js with
  | [] => exact ⟨_, rfl, fun _ => rfl⟩
  | j :: js =>
    rw [Json.itemsDepth] at h
    obtain ⟨k, hk, hsame⟩ := toJson_ofJson room j (by omega)
    obtain ⟨ks, hks, hrest⟩ := itemsToJson_ofItems room js (by omega)
    refine ⟨k :: ks, ?_, ?_⟩
    · rw [ofItems, itemsToJson?, hk, hks]
      rfl
    · intro hordered
      rw [Json.allOrdered, Bool.and_eq_true] at hordered
      rw [hsame hordered.1, hrest hordered.2]

theorem membersToJson_ofMembers (room : Nat) (ms : List (String × Json))
    (h : Json.membersDepth ms ≤ room) :
    ∃ ks, membersToJson? room (ofMembers ms) = some ks ∧
      (Json.membersOrdered ms = true → ks = ms) := by
  match ms with
  | [] => exact ⟨_, rfl, fun _ => rfl⟩
  | (key, j) :: ms =>
    rw [Json.membersDepth] at h
    obtain ⟨k, hk, hsame⟩ := toJson_ofJson room j (by omega)
    obtain ⟨ks, hks, hrest⟩ := membersToJson_ofMembers room ms (by omega)
    refine ⟨(key, k) :: ks, ?_, ?_⟩
    · rw [ofMembers, membersToJson?, hk, hks]
      rfl
    · intro hordered
      rw [Json.membersOrdered, Bool.and_eq_true] at hordered
      rw [hsame hordered.1, hrest hordered.2]

end

end Doc

/-! ## Room -/

namespace Place

variable {p : Place} {n : Nat}

/-- How many containers may be inside each other at a place. What is held has no limit of its own;
the number is the one that free values are read with there. -/
def reach (p : Place) : Nat := if p.held then 1000000 else min p.room 1000000

theorem reach_of_held (h : p.held = true) : p.reach = 1000000 := if_pos h

theorem reach_le (p : Place) : p.reach ≤ 1000000 := by
  unfold reach
  split <;> omega

theorem enter_of_lt (h : n + 1 ≤ p.reach) : ∃ q, p.enter = .ok q ∧ n ≤ q.reach := by
  unfold reach at h
  split at h
  · next hheld => exact ⟨p, if_pos hheld, by rw [reach, if_pos hheld]; omega⟩
  · next hheld =>
    refine ⟨{ p with room := p.room - 1 }, ?_, ?_⟩
    · rw [enter, if_neg hheld, if_neg (by omega)]
    · rw [reach, if_neg hheld]
      simp only
      omega

end Place

/-! ## Codecs -/

/-- What is written for `a` is read as `b` wherever there is room for it. -/
structure Codec.Returns {α : Type} (codec : Codec α) (a b : α) : Prop where
  whole : (codec.encode a).isExact = true
  reads : ∀ p : Place, (codec.encode a).depth ≤ p.reach →
    codec.decode p (Doc.ofJson (codec.encode a)) = .ok b

namespace Codec

variable {α : Type} {codec : Codec α} {a b : α}

/-- A value that is read back where it stands is read back from its text. -/
theorem read_text [codec : Codec α] (h : codec.Returns a b) (hdepth : (encode a).depth ≤ 127) :
    Codec.read (encode a).text = .ok b := by
  have hreads := h.reads {} hdepth
  rw [Codec.read, Doc.ofText_text _ h.whole]
  simp only [hreads]
  rfl

theorem returns_bool (b : Bool) : Codec.Returns inferInstance b b := ⟨rfl, fun _ _ => rfl⟩

theorem returns_string (s : String) : Codec.Returns inferInstance s s := ⟨rfl, fun _ _ => rfl⟩

theorem nat_eq : Json.nat = fun n : Nat => (Number.ofInt? n).elim Json.null Json.number := by
  -- The whole function is opened at once: at an open `n`, its bounds would be computed in unary.
  unfold Json.nat
  funext n
  cases Number.ofInt? n <;> rfl

theorem nat_of_lt {n : Nat} (h : n < twoTo 64) :
    ∃ (low : -(twoTo 63 : Int) ≤ n) (high : (n : Int) < twoTo 64),
      Json.nat n = .number (.whole n low high) := by
  have hsign : -(twoTo 63 : Int) ≤ 0 := by decide
  have hlow : -(twoTo 63 : Int) ≤ n := Int.le_trans hsign (Int.natCast_nonneg n)
  have hhigh : (n : Int) < twoTo 64 := Int.ofNat_lt.mpr h
  refine ⟨hlow, hhigh, ?_⟩
  rw [nat_eq]
  simp only [Doc.ofInt_whole hlow hhigh]
  rfl

theorem natBelow_nat {n : Nat} (limit : Nat) (h : n < limit) (hlimit : limit ≤ twoTo 64) :
    natBelow limit (Doc.ofJson (.nat n)) = .ok n := by
  obtain ⟨low, high, hnat⟩ := nat_of_lt (Nat.lt_of_lt_of_le h hlimit)
  rw [hnat, Doc.ofJson, natBelow]
  exact if_pos ⟨Int.natCast_nonneg n, h⟩

theorem isExact_nat {n : Nat} (h : n < twoTo 64) : (Json.nat n).isExact = true := by
  obtain ⟨low, high, hnat⟩ := nat_of_lt h
  rw [hnat]
  rfl

theorem nat_ne_null {n : Nat} (h : n < twoTo 64) : Json.nat n ≠ .null := by
  obtain ⟨low, high, hnat⟩ := nat_of_lt h
  rw [hnat]
  exact nofun

theorem depth_nat {n : Nat} (h : n < twoTo 64) : (Json.nat n).depth = 0 := by
  obtain ⟨low, high, hnat⟩ := nat_of_lt h
  rw [hnat]
  rfl

theorem decode_uint64 (p : Place) (d : Doc) :
    (decode p d : Except Refusal UInt64) = (natBelow UInt64.size d).map UInt64.ofNat := rfl

theorem returns_uint64 (n : UInt64) : Codec.Returns inferInstance n n where
  whole := isExact_nat n.toNat_lt
  reads p _ := by
    have hbelow := natBelow_nat UInt64.size n.toNat_lt (Nat.le_refl _)
    have hencode : encode n = Json.nat n.toNat := rfl
    rw [hencode, decode_uint64, hbelow, Except.map, UInt64.ofNat_toNat]

theorem decode_uint32 (p : Place) (d : Doc) :
    (decode p d : Except Refusal UInt32) = (natBelow UInt32.size d).map UInt32.ofNat := rfl

theorem returns_uint32 (n : UInt32) : Codec.Returns inferInstance n n where
  whole := isExact_nat (Nat.lt_trans n.toNat_lt (by decide))
  reads p _ := by
    have hbelow := natBelow_nat UInt32.size n.toNat_lt (by decide)
    have hencode : encode n = Json.nat n.toNat := rfl
    rw [hencode, decode_uint32, hbelow, Except.map, UInt32.ofNat_toNat]

theorem returns_decimal (d : Decimal) : Codec.Returns inferInstance d d.standard where
  whole := rfl
  reads _ _ := by simp only [decode, encode, Doc.ofJson, Decimal.read_text]

theorem returns_uuid (u : Uuid) : Codec.Returns inferInstance u u where
  whole := rfl
  reads _ _ := by simp only [decode, encode, Doc.ofJson, Uuid.read_text]

theorem returns_botId (b : BotId) : Codec.Returns inferInstance b b where
  whole := rfl
  reads p h := by
    have huuid := (returns_uuid b.uuid).reads p h
    show (decode p (Doc.ofJson (encode b.uuid))).map BotId.mk = .ok b
    rw [huuid]
    rfl

theorem returns_stamp (s : Stamp) (h : s.HasFourDigitYear) :
    Codec.Returns inferInstance s s where
  whole := rfl
  reads _ _ := by simp only [decode, encode, Doc.ofJson, Stamp.read_text s h]

theorem returns_json (j : Json) (hexact : j.isExact = true) (hordered : j.isOrdered = true) :
    Codec.Returns inferInstance j j where
  whole := hexact
  reads p h := by
    have hroom : j.depth ≤ if p.held then 1000000 else p.room := by
      have hreach : j.depth ≤ p.reach := h
      unfold Place.reach at hreach
      split at hreach <;> split <;> omega
    obtain ⟨k, hvalue, hsame⟩ := Doc.toJson_ofJson _ j hroom
    simp only [decode, encode, hvalue, hsame hordered]

theorem ofJson_eq_null {j : Json} (h : Doc.ofJson j = .null) : j = .null := by
  cases j <;> cases h
  rfl

theorem decode_option [codec : Codec α] (p : Place) {d : Doc} (h : d ≠ .null) :
    (decode p d : Except Refusal (Option α)) = (codec.decode p d).map some := by
  cases d with
  | null => exact absurd rfl h
  | _ => rfl

theorem returns_option [codec : Codec α] (f : α → α) (o : Option α)
    (h : ∀ a ∈ o, codec.Returns a (f a)) (hnull : ∀ a : α, encode a ≠ .null) :
    Codec.Returns inferInstance o (o.map f) := by
  cases o with
  | none => exact ⟨rfl, fun _ _ => rfl⟩
  | some a =>
    have hreturns := h a rfl
    refine ⟨hreturns.whole, fun p hdepth => ?_⟩
    have hdoc : Doc.ofJson (encode a) ≠ .null := fun heq => hnull a (ofJson_eq_null heq)
    exact (decode_option p hdoc).trans (congrArg (Except.map some) (hreturns.reads p hdepth))

theorem returns_option_self [codec : Codec α] (o : Option α) (h : ∀ a ∈ o, codec.Returns a a)
    (hnull : ∀ a : α, encode a ≠ .null) : Codec.Returns inferInstance o o := by
  have hoption := returns_option id o h hnull
  rwa [Option.map_id] at hoption

theorem decodeItems_ofItems [codec : Codec α] (f : α → α) (p : Place) (as : List α)
    (h : ∀ a ∈ as, codec.Returns a (f a)) (hdepth : Json.itemsDepth (as.map encode) ≤ p.reach) :
    decodeItems p (Doc.ofItems (as.map encode)) = .ok (as.map f) := by
  induction as with
  | nil => rfl
  | cons a as ih =>
    rw [List.map_cons, Json.itemsDepth] at hdepth
    have hfirst := (h a List.mem_cons_self).reads p (by omega)
    have hrest := ih (fun a ha => h a (List.mem_cons_of_mem _ ha)) (by omega)
    rw [List.map_cons, Doc.ofItems, decodeItems, hfirst, hrest]
    rfl

theorem allExact_map [codec : Codec α] {f : α → α} {as : List α}
    (h : ∀ a ∈ as, codec.Returns a (f a)) : Json.allExact (as.map encode) = true := by
  induction as with
  | nil => rfl
  | cons a as ih =>
    rw [List.map_cons, Json.allExact, (h a List.mem_cons_self).whole,
      ih fun a ha => h a (List.mem_cons_of_mem _ ha)]
    rfl

theorem returns_list [codec : Codec α] (f : α → α) {as : List α}
    (h : ∀ a ∈ as, codec.Returns a (f a)) : Codec.Returns inferInstance as (as.map f) where
  whole := allExact_map h
  reads p hdepth := by
    obtain ⟨q, henter, hroom⟩ := Place.enter_of_lt hdepth
    have hitems := decodeItems_ofItems f q as h hroom
    simp only [decode, encode, Doc.ofJson, henter, hitems, bind, Except.bind]
    rfl

end Codec

/-! ## Records -/

namespace Fields

variable {σ τ : Type} {s t : σ}

/-- The names of the fields in order. -/
def names : {τ : Type} → Fields σ τ → List String
  | _, .nil => []
  | _, .cons _ name _ _ rest => name :: rest.names

/-- Every field of `s` is read back as the one of `t`. -/
def Return (s t : σ) : {τ : Type} → Fields σ τ → Prop
  | _, .nil => True
  | _, .cons codec _ _ get rest => codec.Returns (get s) (get t) ∧ rest.Return s t

/-- What was read of one field and of the others. -/
def Slots.cons {α : Type} {codec : Codec α} {name : String} {absent : Absence α} {get : σ → α}
    {rest : Fields σ τ} (slot : Option α) (others : rest.Slots) :
    (Fields.cons codec name absent get rest).Slots :=
  (slot, others)

/-- All fields read. -/
def full (t : σ) : {τ : Type} → (fs : Fields σ τ) → fs.Slots
  | _, .nil => ()
  | _, .cons _ _ _ get rest => .cons (some (get t)) (rest.full t)

theorem membersExact_members (fs : Fields σ τ) (h : fs.Return s t) :
    Json.membersExact (fs.members s) = true := by
  induction fs with
  | nil => rfl
  | cons codec name absent get rest ih =>
    obtain ⟨hfirst, hrest⟩ := h
    rw [members, Json.membersExact, hfirst.whole, ih hrest]
    rfl

theorem keys_members (fs : Fields σ τ) : (fs.members s).map (·.1) = fs.names := by
  induction fs with
  | nil => rfl
  | cons codec name absent get rest ih => rw [members, List.map_cons, ih, names]

theorem fillAll_cons (p : Place) (fs : Fields σ τ) (slots : fs.Slots) (key : String) (d : Doc)
    (ms : List (Option String × Doc)) :
    fs.fillAll p slots ((some key, d) :: ms) =
      (fs.fill p key d slots).bind fun slots => fs.fillAll p slots ms := by
  rw [fillAll]
  cases fs.fill p key d slots <;> rfl

section

variable {α : Type} {codec : Codec α} {name key : String} {absent : Absence α} {get : σ → α}
  {rest : Fields σ τ}

theorem noSlots_cons :
    (cons codec name absent get rest).noSlots = .cons none rest.noSlots := rfl

theorem finish_cons (a : α) (others : rest.Slots) :
    (cons codec name absent get rest).finish (.cons (some a) others) =
      (rest.finish others).map fun as => (a, as) := by
  cases hothers : rest.finish others <;> simp only [Slots.cons, finish, hothers] <;> rfl

theorem fill_self (p : Place) (d : Doc) (others : rest.Slots) :
    (cons codec name absent get rest).fill p name d (.cons none others) =
      (codec.decode p d).map fun a => .cons (some a) others :=
  if_pos rfl

theorem fill_other (p : Place) (d : Doc) (slot : Option α) (others : rest.Slots) (h : key ≠ name) :
    (cons codec name absent get rest).fill p key d (.cons slot others) =
      (rest.fill p key d others).map fun others => .cons slot others :=
  if_neg h

theorem fillAll_other (p : Place) (slot : Option α) (ms : List (String × Json))
    (others : rest.Slots) (h : name ∉ ms.map (·.1)) :
    (cons codec name absent get rest).fillAll p (.cons slot others) (Doc.ofMembers ms) =
      (rest.fillAll p others (Doc.ofMembers ms)).map fun others => .cons slot others := by
  induction ms generalizing others with
  | nil => rfl
  | cons m ms ih =>
    obtain ⟨key, value⟩ := m
    rw [List.map_cons, List.mem_cons, not_or] at h
    rw [Doc.ofMembers, fillAll_cons, fillAll_cons, fill_other p _ _ _ (Ne.symm h.1)]
    cases rest.fill p key (Doc.ofJson value) others with
    | error r => rfl
    | ok others' => exact ih others' h.2

end

theorem fillAll_members (p : Place) (fs : Fields σ τ) (hnames : fs.names.Nodup)
    (h : fs.Return s t) (hdepth : Json.membersDepth (fs.members s) ≤ p.reach) :
    fs.fillAll p fs.noSlots (Doc.ofMembers (fs.members s)) = .ok (fs.full t) := by
  induction fs with
  | nil => rfl
  | cons codec name absent get rest ih =>
    obtain ⟨hfirst, hrest⟩ := h
    rw [names, List.nodup_cons] at hnames
    rw [members, Json.membersDepth] at hdepth
    have hread := hfirst.reads p (by omega)
    have hother : name ∉ (rest.members s).map (·.1) := by
      rw [keys_members]
      exact hnames.1
    rw [members, Doc.ofMembers, noSlots_cons, fillAll_cons, fill_self, hread, Except.map,
      Except.bind, fillAll_other p _ _ _ hother, ih hnames.2 hrest (by omega)]
    rfl

theorem finish_full (fs : Fields σ τ) : fs.finish (fs.full t) = .ok (fs.values t) := by
  induction fs with
  | nil => rfl
  | cons codec name absent get rest ih =>
    rw [full, finish_cons, ih]
    rfl

theorem decode_members (p : Place) (fs : Fields σ τ) (hnames : fs.names.Nodup)
    (h : fs.Return s t) (hdepth : Json.membersDepth (fs.members s) + 1 ≤ p.reach) :
    fs.decode p (.object (Doc.ofMembers (fs.members s)) true) = .ok (fs.values t) := by
  obtain ⟨q, henter, hroom⟩ := Place.enter_of_lt hdepth
  have hfill := fillAll_members q fs hnames h hroom
  simp only [decode, henter, hfill, bind, Except.bind, finish_full]
  rfl

end Fields

namespace Record

variable {σ : Type} {s t : σ}

theorem depth_encode (r : Record σ) (s : σ) :
    (r.encode s).depth = Json.membersDepth (r.fields.members s) + 1 := by
  rw [encode, Json.depth]

theorem ofJson_encode (r : Record σ) (s : σ) :
    Doc.ofJson (r.encode s) = .object (Doc.ofMembers (r.fields.members s)) true := by
  rw [encode, Doc.ofJson]

/-- A record is read back when its fields are. -/
theorem returns (r : Record σ) (hnames : r.fields.names.Nodup)
    (hmake : r.make (r.fields.values t) = t) (h : r.fields.Return s t) :
    r.codec.Returns s t where
  whole := r.fields.membersExact_members h
  reads p hdepth := by
    change (r.encode s).depth ≤ p.reach at hdepth
    show (r.fields.decode p (Doc.ofJson (r.encode s))).map r.make = .ok t
    rw [depth_encode] at hdepth
    rw [ofJson_encode, r.fields.decode_members p hnames h hdepth, Except.map, hmake]

end Record

/-! ## Alternatives -/

namespace Arm

variable {α : Type} {arms : List (String × Arm α)} {name : String} {a : α}

theorem decode_plain (h : arms.lookup name = some (.plain a)) (p : Place) :
    decodeOneOf arms p (.string (some name)) = .ok a := by
  rw [decodeOneOf, h]

theorem decode_holding {f : Decoder α} {p q : Place} {d : Doc}
    (h : arms.lookup name = some (.holding f)) (henter : p.enter = .ok q) (hd : f q d = .ok a) :
    decodeOneOf arms p (.object [(some name, d)] true) = .ok a := by
  simp only [decodeOneOf, henter, h, hd, bind, Except.bind, List.isEmpty_nil, Bool.not_true,
    Bool.and_false]
  rfl

end Arm

/-! ## Bounds on the nesting -/

namespace Codec

variable {α : Type} {n : Nat}

/-- No value is written with more than `n` containers inside each other. -/
def Within (codec : Codec α) (n : Nat) : Prop := ∀ a, (codec.encode a).depth ≤ n

theorem within_bool : Codec.Within (inferInstance : Codec Bool) n := fun _ => Nat.zero_le n

theorem within_string : Codec.Within (inferInstance : Codec String) n := fun _ => Nat.zero_le n

theorem within_uint64 : Codec.Within (inferInstance : Codec UInt64) n := fun a =>
  Nat.le_trans (Nat.le_of_eq (depth_nat a.toNat_lt)) (Nat.zero_le n)

theorem within_uint32 : Codec.Within (inferInstance : Codec UInt32) n := fun a =>
  Nat.le_trans (Nat.le_of_eq (depth_nat (Nat.lt_trans a.toNat_lt (by decide)))) (Nat.zero_le n)

theorem within_decimal : Codec.Within (inferInstance : Codec Decimal) n := fun _ => Nat.zero_le n

theorem within_uuid : Codec.Within (inferInstance : Codec Uuid) n := fun _ => Nat.zero_le n

theorem within_botId : Codec.Within (inferInstance : Codec BotId) n := fun _ => Nat.zero_le n

theorem within_stamp : Codec.Within (inferInstance : Codec Stamp) n := fun _ => Nat.zero_le n

theorem within_option [codec : Codec α] (h : codec.Within n) :
    Codec.Within (inferInstance : Codec (Option α)) n
  | none => Nat.zero_le n
  | some a => h a

theorem itemsDepth_le [codec : Codec α] (h : codec.Within n) (as : List α) :
    Json.itemsDepth (as.map encode) ≤ n := by
  induction as with
  | nil => exact Nat.zero_le n
  | cons a as ih =>
    rw [List.map_cons, Json.itemsDepth]
    exact Nat.max_le.mpr ⟨h a, ih⟩

theorem within_list [codec : Codec α] (h : codec.Within n) :
    Codec.Within (inferInstance : Codec (List α)) (n + 1) := fun as =>
  Nat.succ_le_succ (itemsDepth_le h as)

end Codec

namespace Fields

variable {σ τ : Type} {n : Nat}

/-- What is written for every field is within `n`. -/
def Within (n : Nat) : {τ : Type} → Fields σ τ → Prop
  | _, .nil => True
  | _, .cons codec _ _ _ rest => codec.Within n ∧ rest.Within n

theorem membersDepth_le (fs : Fields σ τ) (h : fs.Within n) (s : σ) :
    Json.membersDepth (fs.members s) ≤ n := by
  induction fs with
  | nil => exact Nat.zero_le n
  | cons codec name absent get rest ih =>
    rw [members, Json.membersDepth]
    exact Nat.max_le.mpr ⟨h.1 (get s), ih h.2⟩

end Fields

theorem Record.within {σ : Type} {n : Nat} (r : Record σ) (h : r.fields.Within n) :
    r.codec.Within (n + 1) := fun s =>
  Nat.le_trans (Nat.le_of_eq (r.depth_encode s))
    (Nat.succ_le_succ (r.fields.membersDepth_le h s))

end LaunchDesk
