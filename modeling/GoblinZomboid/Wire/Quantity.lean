import GoblinZomboid.Wire.Command
/-!
# The quantity of an order

How many trees, finds, foods or traps an intent asks for goes from the
validator to the controller, the driver, the bridge and the brain. On the
way the driver sends an item only if it has a name, so a count without one
gives way to the brain's own.
-/

namespace GoblinZomboid

namespace Quantity

open PyValue (int str dict)
open Controllers (SafeAction BodyState)
open Protocol (makeMessage encodeMessage)
open Wire (jsonDecode Carries Received)

/-! ## The payload -/

/-- The intents a count belongs to. -/
def counted : List Action := [.chopWood, .forage, .cook, .checkTraps]

/-- The payload `Brain.execute` builds from a message that the bridge routed as
an order. -/
def builtPayload (message : LuaValue) (ownerAuthorized : Bool) : Option LuaValue :=
  let order := (Bridge.normalizedMessage message).set "owner_authorized" (.bool ownerAuthorized)
  (order.field "action").str?.bind fun sent => Brain.ownerJobPayload (Bytes.upper sent) order

/-- The count of a payload; of traps it is how many to place. -/
def quantity (payload : LuaValue) : LuaValue :=
  if (payload.field "count").isNil then payload.field "place" else payload.field "count"

/-- The number the brain takes where the order has none. -/
def standard : Action → Option ℤ
  | .chopWood => some 1
  | .forage => some 5
  | .checkTraps => some 2
  | _ => none

/-- The item of the message has the count, or there is none and the count is
the brain's own. -/
def countIn (item : LuaValue) (a : Action) : LuaValue :=
  match item.field "count" with
  | .nil =>
    match standard a with
    | some n => .num (.finite n)
    | none => .nil
  | v => v

section payload

/-- What an order's payload holds as its count. -/
theorem quantity_count (v : LuaValue) : quantity (Brain.tableOf
    [("explicit_owner_order", .bool true), ("count", v)]) = v := by
  cases v <;> rfl

theorem quantity_dish {dish : LuaValue} (hdish : dish = .nil ∨ ∃ s, dish = .str s) (v : LuaValue) :
    quantity (Brain.tableOf [("explicit_owner_order", .bool true), ("dish", dish), ("count", v)]) =
      v := by
  rcases hdish with rfl | ⟨s, rfl⟩ <;> cases v <;> rfl

theorem quantity_place (v : LuaValue) : quantity (Brain.tableOf
    [("explicit_owner_order", .bool true), ("place", v)]) = v := by
  cases v <;> rfl

/-- The brain's own number stands in for a missing count. -/
theorem luaOr_count {item : LuaValue} {a : Action} {n : ℤ} (ha : standard a = some n)
    (hcount : item.field "count" = .nil ∨ ∃ n : ℤ, item.field "count" = .num (.finite n)) :
    Bridge.luaOr (item.field "count") (.num (.finite n)) = countIn item a := by
  rcases hcount with hnone | ⟨k, hk⟩
  · rw [countIn, hnone, ha]
    rfl
  · rw [countIn, hk]
    rfl

variable {message : LuaValue} {a : Action}

/-- A counted order is routed as it came. -/
theorem normalizedMessage_eq (ha : a ∈ counted)
    (haction : message.field "action" = .str (Bytes.lit a.value)) :
    Bridge.normalizedMessage message = message := by
  have hother : ∀ names ∈ [["SEARCH", "SCAVENGE", "LOOT_AREA"],
      ["NOOP", "WAIT", "HOLD_POSITION", "REST"], ["FOLLOW_GOBLIN", "REGROUP", "HELP"],
      ["GO_HOME", "RETURN"], ["REMEMBER_BASE"], ["DEFEND_PLAYER", "DEFEND_AREA", "CLEAR_BUILDING"],
      ["RETREAT", "FLEE"]], ¬ Authority.actionIn message (names.map Bytes.lit) = true := by
    have hall : ∀ a ∈ counted, ∀ names ∈ [["SEARCH", "SCAVENGE", "LOOT_AREA"],
        ["NOOP", "WAIT", "HOLD_POSITION", "REST"], ["FOLLOW_GOBLIN", "REGROUP", "HELP"],
        ["GO_HOME", "RETURN"], ["REMEMBER_BASE"],
        ["DEFEND_PLAYER", "DEFEND_AREA", "CLEAR_BUILDING"], ["RETREAT", "FLEE"]],
        (names.map Bytes.lit).contains (Bytes.lit a.value) = false := by decide
    intro names hnames
    rw [Authority.actionIn, haction, Bool.not_eq_true]
    exact hall a ha names hnames
  unfold Bridge.normalizedMessage
  dsimp only
  rw [if_neg (hother _ (by decide)), if_neg (hother _ (by decide)), if_neg (hother _ (by decide)),
    if_neg (hother _ (by decide)), if_neg (hother _ (by decide)), if_neg (hother _ (by decide)),
    if_neg (hother _ (by decide))]

/-- **The quantity of a counted order**: the count of its item or the brain's
own, where traps only have one if they are to be placed. -/
theorem exists_payload (ownerAuthorized : Bool) (ha : a ∈ counted)
    (haction : message.field "action" = .str (Bytes.lit a.value))
    (hcount : (message.field "item").orEmpty.field "count" = .nil ∨
      ∃ n : ℤ, (message.field "item").orEmpty.field "count" = .num (.finite n)) :
    ∃ payload, builtPayload message ownerAuthorized = some payload ∧
      quantity payload = if a = .checkTraps ∧ (message.field "job").str? ≠ some (Bytes.lit "place")
        then .nil else countIn (message.field "item").orEmpty a := by
  have horder (name : String) (h : Bytes.lit "owner_authorized" ≠ Bytes.lit name) :
      ((Bridge.normalizedMessage message).set "owner_authorized" (.bool ownerAuthorized)).field
        name = message.field name := by
    rw [LuaValue.field_set_of_ne h, normalizedMessage_eq ha haction]
  have htask : ∀ a ∈ counted, Task.ofBytes? (Bytes.upper (Bytes.lit a.value)) =
      if a = .chopWood then some .chopWood
      else if a = .forage then some .forage
      else if a = .cook then some .cook
      else some .checkTraps := by
    decide
  unfold builtPayload
  dsimp only
  rw [horder "action" (by decide), haction, LuaValue.str?, Option.bind_some]
  unfold Brain.ownerJobPayload
  rw [htask a ha, horder "item" (by decide), horder "job" (by decide)]
  generalize (message.field "item").orEmpty = item at hcount ⊢
  simp only [counted, List.mem_cons, List.not_mem_nil, or_false] at ha
  rcases ha with rfl | rfl | rfl | rfl
  · refine ⟨_, rfl, ?_⟩
    rw [if_neg (by simp), quantity_count]
    exact luaOr_count (n := 1) rfl hcount
  · refine ⟨_, rfl, ?_⟩
    rw [if_neg (by simp), quantity_count]
    exact luaOr_count (n := 5) rfl hcount
  · refine ⟨_, rfl, ?_⟩
    refine (quantity_dish ?_ _).trans ?_
    · -- A dish is a job of the message, if there is one.
      cases message.field "job" with
      | str s => exact (ite_eq_or_eq _ _ _).symm.imp_right fun h => ⟨s, h⟩
      | _ => exact .inl (ite_self _)
    · rw [if_neg (by simp), countIn]
      rcases hcount with hnone | ⟨k, hk⟩
      · rw [hnone]
        rfl
      · rw [hk]
  · refine ⟨_, rfl, ?_⟩
    refine (quantity_place _).trans ?_
    have hstandard := @luaOr_count item .checkTraps 2 rfl hcount
    cases hjob : message.field "job" with
    | str s =>
      by_cases hplace : s = Bytes.lit "place"
      · subst hplace
        exact hstandard
      · have hne : (LuaValue.str s).str? ≠ some (Bytes.lit "place") :=
          fun heq => hplace (Option.some_inj.1 heq)
        refine Eq.trans ?_ (if_pos ⟨rfl, hne⟩).symm
        exact if_neg (by simpa using hne)
    | _ => exact (if_pos ⟨rfl, fun h => by cases h⟩).symm

end payload

/-! ## From the intent to the payload -/

variable {u : Unicode} {raw : PyValue} {v : Validator.Validated} {s : BodyState} {a : SafeAction}
  {d : Npc.Driver} {o : Npc.Orders} {clock : ℤ} {requestId : PyText} {m : Protocol.Message}
  {it : Controllers.Item} {n : ℤ}

/-- The count of the message is the count of the item, where the item is
sent. -/
theorem count_of_received {table : List (LuaKey × LuaValue)} {npcId : PyText}
    (h : Received (Npc.fields npcId a o) table) :
    (((LuaValue.table table).field "item").orEmpty.field "count" = .nil ∧ a.itemName = none) ∨
      (((LuaValue.table table).field "item").orEmpty.field "count" =
        .num (.finite (Npc.asDict.itemCount a)) ∧ a.itemName.isSome = true) := by
  have hitem := Wire.get_item_fields npcId a o
  cases hname : a.itemName with
  | none =>
    rw [hname, Option.map_none] at hitem
    rw [h.missing "item" (by decide) hitem]
    exact .inl ⟨rfl, rfl⟩
  | some name =>
    rw [hname, Option.map_some] at hitem
    have hcarries := h.field "item" _ hitem
    have hkeys : (([(PyText.lit "name", str (name.take 64)),
        (PyText.lit "count", int (Npc.asDict.itemCount a))] : Protocol.Dict).map Prod.fst).Nodup := by
      exact (by decide : [PyText.lit "name", PyText.lit "count"].Nodup)
    have hcount : Carries (int (Npc.asDict.itemCount a)) _ :=
      Wire.field_of_carries hkeys hcarries (rfl : Protocol.get _ "count" = _)
    rw [Wire.orEmpty_of_carries hcarries, Wire.eq_num_of_carries hcount]
    exact .inr ⟨rfl, rfl⟩

/-- **Requested quantity.** The command of an accepted intent to chop, forage,
cook or see to the traps, which asks for `n`, is read by the mod. The
payload the brain builds from it has that quantity if and only if the item
is named, or `n` is the number the brain takes by itself, and traps are to
be placed. -/
theorem quantity_iff (hvalid : Validator.validate u raw = .ok v)
    (hdecide : Controllers.decide v.intent s = .ok a) (hcounted : a.action ∈ counted)
    (hitem : v.intent.item = some it) (hcount : it.count = some n)
    (hadmitted : d.refusal u a o = none) (hclock : clock.natAbs ≤ 2 ^ 53)
    (hmake : makeMessage clock (PyText.lit "command.npc_action") requestId 0
      (Npc.fields d.npcId a o) = .ok m) (ownerAuthorized : Bool) :
    ∃ data, encodeMessage m = .ok data ∧
      ((∃ payload, builtPayload (jsonDecode data) ownerAuthorized = some payload ∧
          quantity payload = .num (.finite n)) ↔
        (it.name.isSome = true ∨ standard a.action = some n) ∧
          (a.action = .checkTraps → v.intent.job = some (PyText.lit "place"))) := by
  -- Reflex and combat leave these orders alone, so the action is the intent's.
  have hasks : Controllers.Asks v.intent s a := by
    rcases Controllers.alone_or_tactical hdecide with halone | htactical
    · have hnot : ∀ b ∈ counted, b ∉ [Action.drink, .eat, .bandage, .flee, .attack] := by decide
      exact absurd halone.action (hnot _ hcounted)
    · exact Controllers.asks_of_tactical htactical
  obtain ⟨entries, rfl, haccepted⟩ := Validator.accepted_of_validate hvalid
  have hsent : Wire.Sent a o :=
    Wire.sent_of_admitted hadmitted (hasks.members ▸ Validator.length_members_le haccepted)
  obtain ⟨data, table, hencode, hdecode, -, hreceived⟩ := Wire.exists_received hsent hclock hmake
  refine ⟨data, hencode, ?_⟩
  rw [hdecode]
  have haction := Wire.eq_str_of_carries (hreceived.field "action" _ (Npc.get_action_fields d.npcId a o))
  rw [PyText.lit, ← Utf8.lit_eq_encode] at haction
  have hname : a.itemName = it.name := by rw [hasks.itemName, hitem, Option.bind_some]
  have hsame : a.itemCount = some n := by rw [hasks.itemCount, hitem, Option.bind_some, hcount]
  have hsentCount : Npc.asDict.itemCount a = n := by
    have hpos := (hsent.count n hsame).1
    unfold Npc.asDict.itemCount
    rw [hsame]
    exact if_neg (by omega)
  have hcountIn := count_of_received hreceived
  rw [hsentCount, hname] at hcountIn
  obtain ⟨payload, hpayload, hquantity⟩ := exists_payload ownerAuthorized
    hcounted haction (hcountIn.imp (·.1) fun h => ⟨n, h.1⟩)
  have hjob : ((LuaValue.table table).field "job").str? = some (Bytes.lit "place") ↔
      v.intent.job = some (PyText.lit "place") := by
    have hget := Wire.get_job_fields d.npcId a o
    rw [← hasks.job]
    cases hj : a.job with
    | none =>
      rw [hj, Option.map_none] at hget
      rw [hreceived.missing "job" (by decide) hget]
      exact iff_of_false (fun h => by cases h) (fun h => by cases h)
    | some job =>
      rw [hj, Option.map_some] at hget
      rw [Wire.eq_str_of_carries (hreceived.field "job" _ hget), LuaValue.str?, Option.some_inj,
        Option.some_inj, Utf8.lit_eq_encode]
      exact Utf8.encode_injective.eq_iff
  have hcountEq : countIn ((LuaValue.table table).field "item").orEmpty a.action =
      .num (.finite n) ↔ it.name.isSome = true ∨ standard a.action = some n := by
    rcases hcountIn with ⟨hnone, hunnamed⟩ | ⟨hsome, hnamed⟩
    · rw [countIn, hnone, hunnamed]
      cases hstd : standard a.action with
      | none => exact iff_of_false (fun h => by cases h) (by simp)
      | some k => simp
    · rw [countIn, hsome]
      exact iff_of_true rfl (.inl hnamed)
  constructor
  · rintro ⟨payload', hpayload', hq⟩
    obtain rfl := Option.some_inj.1 (hpayload.symm.trans hpayload')
    rw [hquantity] at hq
    split at hq
    · cases hq
    · rename_i hplace
      refine ⟨hcountEq.1 hq, fun htraps => ?_⟩
      by_contra hne
      exact hplace ⟨htraps, fun h => hne (hjob.1 h)⟩
  · rintro ⟨hcond, hplace⟩
    refine ⟨payload, hpayload, ?_⟩
    rw [hquantity, if_neg fun h => h.2 (hjob.2 (hplace h.1))]
    exact hcountEq.2 hcond

/-! ## A named and an unnamed find -/

/-- A body that is well and alone. -/
def wellBody : BodyState where
  alive := true
  bodyPresent := true
  hunger := 0
  thirst := 0
  fatigue := 0
  panic := 0
  injury := 0
  threatLevel := PyText.lit "none"
  weaponReady := false
  hasFood := false
  hasWater := false
  hasMedical := false
  mode := PyText.lit "SAFE"
  controlReady := true
  npcEngineReady := true
  npcId := Npc.npcId
  bodyMode := PyText.lit "SAFE"

/-- A forage for three, of a named find or of any. -/
def forageIntent (item : Protocol.Dict) : PyValue :=
  .dict [(PyText.lit "intent", str (PyText.lit "FORAGE")), (PyText.lit "mode", str (PyText.lit "SAFE")),
    (PyText.lit "text", str (PyText.lit "On it.")), (PyText.lit "item", dict item)]

/-- What the validator makes of it. -/
def validForage (item : Controllers.Item) : Validator.Validated where
  intent :=
    { intent := PyText.lit "FORAGE"
      priority := some 1
      target := none
      candidate := none
      item := some item
      members := none
      requestedMembers := []
      npcId := none
      leader := none
      job := none
      formation := none
      text := some (PyText.lit "On it.")
      squadId := none
      lootFocus := none }
  mode := PyText.lit "SAFE"
  category := none
  clue := none
  abortIf := none
  zone := none
  mission := none

/-- What the controller makes of that. -/
def forageAction (item : Controllers.Item) : SafeAction :=
  { SafeAction.plain .forage 1 "validated intent FORAGE" Npc.npcId with
    itemName := item.name
    itemCount := item.count
    text := some (PyText.lit "On it.") }

def forageDriver : Npc.Driver := ⟨Npc.npcId, true, true⟩

/-- The grant of the owner who asked. -/
def forageOrders : Npc.Orders := ⟨str (PyText.lit "token1"), str (PyText.lit "rick"), false, false⟩

def forageMessage (item : Controllers.Item) : Protocol.Message where
  protocol := int Protocol.version
  requestId := PyText.lit "npc-1"
  timestampMs := 1000
  type := PyText.lit "command.npc_action"
  fields := Npc.fields Npc.npcId (forageAction item) forageOrders

/-- Three berries. -/
def berries : Controllers.Item := ⟨some (PyText.lit "berries"), some 3⟩

/-- Three finds of any kind. -/
def anyThree : Controllers.Item := ⟨none, some 3⟩

theorem makeMessage_forage {item : Controllers.Item}
    (hdump : PyValue.dumpable (dict (forageMessage item).asDict) = true)
    (hsize : PyValue.size (PyValue.json (dict (forageMessage item).asDict)) ≤
      Protocol.maxMessageBytes) :
    makeMessage 1000 (PyText.lit "command.npc_action") (PyText.lit "npc-1") 0
      (Npc.fields Npc.npcId (forageAction item) forageOrders) = .ok (forageMessage item) := by
  have haccepts : Protocol.Accepts none (forageMessage item).asDict (forageMessage item) :=
    Protocol.accepts_asDict (fun e he => Npc.name_of_mem_fields he) rfl
      (by decide : Protocol.validType (PyText.lit "command.npc_action") = true)
      (by decide : Protocol.validRequestId (PyText.lit "npc-1") = true)
      (by decide : (0 : ℤ) < 1000) hdump hsize
  exact Protocol.fromMappingAt_eq_ok.2 haccepts

/-- Three berries are three berries to the brain. -/
theorem quantity_iff_berries : ∃ data, encodeMessage (forageMessage berries) = .ok data ∧
    ((∃ payload, builtPayload (jsonDecode data) true = some payload ∧
        quantity payload = .num (.finite (3 : ℤ))) ↔
      (berries.name.isSome = true ∨ standard (forageAction berries).action = some 3) ∧
        ((forageAction berries).action = .checkTraps →
          (validForage berries).intent.job = some (PyText.lit "place"))) :=
  quantity_iff (u := Unicode.ascii) (s := wellBody) (o := forageOrders) (d := forageDriver)
    (by decide +kernel : Validator.validate Unicode.ascii
      (forageIntent [(PyText.lit "name", str (PyText.lit "berries")), (PyText.lit "count", int 3)]) =
        .ok (validForage berries))
    (by decide +kernel) (by decide) rfl rfl (by decide +kernel) (by decide)
    (makeMessage_forage (by decide +kernel) (by decide +kernel)) true

/-- **Three finds of any kind** are five to the brain: the driver leaves the
item out. -/
theorem any_three_lost : ∃ data payload,
    Validator.validate Unicode.ascii (forageIntent [(PyText.lit "count", int 3)]) =
      .ok (validForage anyThree) ∧
    Controllers.decide (validForage anyThree).intent wellBody = .ok (forageAction anyThree) ∧
    forageDriver.refusal Unicode.ascii (forageAction anyThree) forageOrders = none ∧
    makeMessage 1000 (PyText.lit "command.npc_action") (PyText.lit "npc-1") 0
      (Npc.fields Npc.npcId (forageAction anyThree) forageOrders) = .ok (forageMessage anyThree) ∧
    encodeMessage (forageMessage anyThree) = .ok data ∧
    builtPayload (jsonDecode data) true = some payload ∧
    quantity payload = .num (.finite (5 : ℤ)) := by
  have hmake := @makeMessage_forage anyThree (by decide +kernel) (by decide +kernel)
  have hadmitted : forageDriver.refusal Unicode.ascii (forageAction anyThree) forageOrders = none := by
    decide
  obtain ⟨data, table, hencode, hdecode, -, hreceived⟩ :=
    Wire.exists_received (Wire.sent_of_admitted hadmitted (by decide)) (by decide) hmake
  have haction := Wire.eq_str_of_carries
    (hreceived.field "action" _ (Npc.get_action_fields Npc.npcId (forageAction anyThree) forageOrders))
  rw [PyText.lit, ← Utf8.lit_eq_encode] at haction
  have hitem : (LuaValue.table table).field "item" = .nil :=
    hreceived.missing "item" (by decide) (Wire.get_item_fields Npc.npcId (forageAction anyThree) forageOrders)
  have hcount : ((LuaValue.table table).field "item").orEmpty.field "count" = .nil := by
    rw [hitem]
    rfl
  obtain ⟨payload, hpayload, hquantity⟩ :=
    exists_payload (a := .forage) true (by decide) haction (.inl hcount)
  refine ⟨data, payload, by decide +kernel, by decide +kernel, hadmitted, hmake, hencode, ?_, ?_⟩
  · rw [hdecode]
    exact hpayload
  · have hcountIn : countIn ((LuaValue.table table).field "item").orEmpty .forage =
        .num (.finite (5 : ℤ)) := by
      rw [hitem]
      rfl
    rw [hquantity, if_neg fun h => nomatch h.1]
    exact hcountIn

end Quantity

end GoblinZomboid
