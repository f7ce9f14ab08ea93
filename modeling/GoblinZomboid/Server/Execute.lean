import GoblinZomboid.Server.Brain
import GoblinZomboid.Server.Bridge
/-!
# Commands put into effect

`Brain.execute` turns a message into an order; the bridge calls it on the
routed message and marks the body when a free-will choice was taken up.
-/

namespace GoblinZomboid

namespace Brain

open LuaValue (str bool num nil)

/-! ## `Brain.execute` -/

/-- A table constructor: a field that is `nil` is no entry. -/
def tableOf (fields : List (String × LuaValue)) : LuaValue :=
  .ofFields (fields.filter fun e => !e.2.isNil)

/-- `ownerJobPayload`, for an action in upper case: none for what is no
owner's job. -/
def ownerJobPayload (action : Bytes) (message : LuaValue) : Option LuaValue :=
  let item := (message.field "item").orEmpty
  let job := match message.field "job" with
    | str s => str s
    | _ => nil
  let isJob (name : String) : Bool := job.str? == some (Bytes.lit name)
  let payload (fields : List (String × LuaValue)) : LuaValue :=
    tableOf (("explicit_owner_order", bool true) :: fields)
  let countOr (n : ℚ) : LuaValue := Bridge.luaOr (item.field "count") (num (.finite n))
  match Task.ofBytes? action with
  | some .dismantle =>
    some (payload (if isJob "salvage" || (message.field "freewill").isTrue
      then [("salvage", bool true)] else []))
  | some .moveCorpse | some .repairStructure | some .treatPlayer | some .vehicleInspect
  | some .refuelVehicle | some .vehicleService | some .restorePower => some (payload [])
  | some .stockpile => some (payload [("item", item.field "name")])
  | some .sortStorage => some (payload [("all", bool (isJob "all"))])
  | some .fetchItem => some (payload [("item", item.field "name"), ("count", countOr 1)])
  | some .deliver =>
    some (payload [("item", item.field "name"), ("allow_floor", bool (isJob "floor"))])
  | some .installPart | some .removePart | some .replacePart =>
    some (payload [("part", job), ("item", item.field "name")])
  | some .changeTire => some (payload [("part", job)])
  | some .chopWood => some (payload [("count", countOr 1)])
  | some .forage => some (payload [("count", countOr 5)])
  | some .cook =>
    some (payload [("dish", if isJob "soup" || isJob "stew" then job else nil),
      ("count", item.field "count")])
  | some .checkTraps => some (payload [("place", if isJob "place" then countOr 2 else nil)])
  | _ => none

/-- `Brain.execute`. -/
def execute (e : Engine) (p : Post) (message : LuaValue) : (Bool × String) × Post :=
  let autonomous := (message.field "autonomous").isTrue
  let order (t : Task) (fields : List (String × LuaValue)) : (Bool × String) × Post :=
    setTask e p t.bytes (tableOf fields)
  if !Body.isGoblin p.body then ((false, "Goblin body is not present"), p)
  else
    match (message.field "action").str? with
    | none => ((false, "malformed Goblin command"), p)
    | some sent =>
      let action := Bytes.upper sent
      let isOne (names : List String) : Bool := (names.map Bytes.lit).contains action
      if isOne ["ENTER_VEHICLE", "EXIT_VEHICLE", "START_VEHICLE", "UNLOCK_VEHICLE"] then
        setTask e p action (tableOf [])
      else
        match ownerJobPayload action message with
        | some payload =>
          if !(message.field "owner_authorized").isTrue || autonomous then
            ((false, "that job needs the owner's own request"), p)
          else setTask e p action payload
        | none =>
          if (Task.ofBytes? action).any Jobs.handles then
            setTask e p action (tableOf [("job", message.field "job"),
              ("item", message.field "item"), ("target", message.field "target"),
              ("allow_breach", bool (message.field "allow_breach").isTrue),
              ("autonomous", bool autonomous)])
          else if isOne ["OPEN_DOOR", "OPEN_WINDOW"] then setTask e p action (tableOf [])
          else if isOne ["SAY"] then order .speak [("text", message.field "text")]
          else if isOne ["EQUIP"] then order .equip []
          else if isOne ["WAIT", "NOOP", "HOLD_POSITION", "REST"] then
            order .wait [("autonomous", bool autonomous)]
          else if isOne ["FOLLOW", "FOLLOW_GOBLIN", "REGROUP", "HELP", "DEFEND_PLAYER"] then
            order .follow [("owner", str (Body.owner p.body)), ("manual", bool true)]
          else if isOne ["SET_BASE", "REMEMBER_BASE"] then order .setBase []
          else if isOne ["SECURE_BASE", "FORTIFY"] then
            order .fortify [("autonomous", bool autonomous)]
          else if isOne ["BUILD"] then
            order .build [("kind", Bridge.luaOr (message.field "kind")
              ((message.field "item").field "name")),
              ("north", bool (message.field "north").isTrue)]
          else if isOne ["RETURN_TO_BASE", "GO_HOME", "RETURN"] then
            order .returnToBase [("autonomous", bool autonomous)]
          else if isOne ["LOOT", "LOOT_AREA", "SCAVENGE", "SEARCH"] then
            order .loot [("loot_focus", match message.field "loot_focus" with
              | str s => str s
              | _ => str (Bytes.lit "surprise")), ("autonomous", bool autonomous)]
          else if isOne ["ATTACK", "DEFEND_AREA", "CLEAR_BUILDING"] then order .attack []
          else if isOne ["MOVE_TO"] then
            match message.field "x", message.field "y", message.field "z" with
            | num x, num y, num z => order .moveTo [("x", num x), ("y", num y), ("z", num z)]
            | _, _, _ => ((false, "unsupported Goblin action"), p)
          else ((false, "unsupported Goblin action"), p)

end Brain

namespace Bridge

/-! ## The bridge's part -/

/-- `data.GoblinFreewill = true`. -/
def markFreewill (data : Data) : Data := { data with goblinFreewill := true }

/-- What `process` does to the body with a routed message. -/
def carryOut (e : Brain.Engine) (message : LuaValue) (p : Brain.Post) :
    Route → (Bool × String) × Brain.Post
  | .refuse detail => ((false, detail), p)
  | .offline normalized => Brain.execute e p (normalized.set "autonomous" (.bool true))
  | .order normalized ownerAuthorized freewill =>
    let answer := Brain.execute e p (normalized.set "owner_authorized" (.bool ownerAuthorized))
    if answer.1.1 && freewill && !idleChoice message then
      (answer.1, answer.2.withData markFreewill)
    else answer

end Bridge

end GoblinZomboid
