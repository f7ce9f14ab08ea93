import GoblinZomboid.Server.Authority
import GoblinZomboid.Lib.LuaPattern
/-!
# `ChatBridge.lua`: chat commands

A chat line that speaks of the companion is cleaned, read for an order
that can be taken at once, and published as an event for the agent.
-/

namespace GoblinZomboid

/-! ## Names -/

namespace Identity

/-- `first`, the first halves of the names there are. -/
def first : List Bytes :=
  ["Grubsnarl", "Rattlefang", "Muckbite", "Scabclaw", "Feral Gristle", "Ratspit", "Boggnash",
    "Scrapgnaw", "Moldmaw", "Sootfang", "Gutterclaw", "Nettletooth"].map Bytes.lit

/-- A name `Identity.name` gives: a first half, a blank, and the rest. -/
structure Name where
  half : Bytes
  rest : Bytes
  mem : half ∈ first

def Name.text (name : Name) : Bytes := name.half ++ 32 :: name.rest

end Identity

namespace ChatBridge

open LuaValue (str bool)

/-! ## Reading a line -/

/-- `username`, the check `Authority.lua` makes too. -/
def username (player : Player) : Option Bytes := Authority.username player

/-- What stands for a coordinate in a cleaned text. -/
def redacted : Bytes := Bytes.lit "[redacted]"

/-- `cleanText` of a string. -/
def cleanBytes (value : Bytes) : Option Bytes :=
  if value.length < 1 || 240 < value.length then none
  else
    let value := LuaPattern.gsub value "[%c]" (Bytes.lit " ")
    let value := LuaPattern.gsub value "[xyzXYZ]%s*=%s*[-+]?%d+%.?%d*" redacted
    some (LuaPattern.gsub value
      "(%-?%d+%.?%d*)%s*[,;]%s*(%-?%d+%.?%d*)%s*[,;]%s*(%-?%d+%.?%d*)" redacted)

/-- `cleanText`. -/
def cleanText : LuaValue → Option Bytes
  | str value => cleanBytes value
  | _ => none

/-- `string.match(s, "^%S+")`, empty where there is no match. -/
def firstWord (s : Bytes) : Bytes := s.takeWhile fun b => !Bytes.isSpace b

/-- `mentionsGoblin`, given the name of the speaker's companion. -/
def mentionsGoblin (value : Bytes) (name : Option Identity.Name) : Bool :=
  let lower := Bytes.lower value
  (name.any fun name => LuaPattern.contains lower (firstWord (Bytes.lower name.text)))
    || LuaPattern.contains lower (Bytes.lit "goblin")
    || lower.take 7 == Bytes.lit "!goblin"

/-- The nouns of `DISMANTLE`. -/
def furnishings : List String :=
  ["furniture", "chair", "chairs", "stool", "stools", "table", "tables", "desk", "desks",
    "cabinet", "cabinets", "cupboard", "cupboards", "counter", "counters", "crate", "crates",
    "shelf", "shelves", "bookcase", "bookcases"]

/-- `ChatBridge.directIntent`: the order a line gives, if it is plain. -/
def directIntent (text : Bytes) : Option Task :=
  let whole := Bytes.lower text
  let denied := ["don't", "do not", "never ", " not "].any fun phrase =>
    LuaPattern.contains whole (Bytes.lit phrase)
  let lower := LuaPattern.gsub (LuaPattern.gsub whole "^%s*goblin[%s,:!]*" []) "^please%s+" []
  let has (phrase : String) : Bool := LuaPattern.contains lower (Bytes.lit phrase)
  let hasOne (phrases : List String) : Bool := phrases.any has
  let matches1 (pattern : String) : Bool := LuaPattern.found pattern lower
  let one (patterns : List String) : Bool := patterns.any matches1
  let word (w : String) : Bool := matches1 ("%f[%a]" ++ w ++ "%f[%A]")
  let vehicle := hasOne ["car", "vehicle", "truck"] || word "van"
  let car := ["car", "vehicle", "truck", "van", "tank"].any word
  let fuel := word "gas" || word "fuel" || hasOne ["petrol", "gasoline", "diesel"] || word "refuel"
  let curtain := has "curtain" || word "blinds"
  let corpse := one ["^remove%s+", "^clear%s+", "^clean%s+", "^move%s+", "^pile%s+", "^drag%s+",
    "^take%s+"]
  let dismantle := one ["^dismantle%s+", "^disassemble%s+", "^take%s+apart%s+", "^break%s+down%s+",
    "^break%s+.+%s+down[%p%s]*$"]
  if denied then none
  else if one ["^what%s", "^why%s", "^how%s", "^are%s", "^do%s"] then none
  else if word "disembark" || hasOne ["get out of the car", "get out of the vehicle",
      "exit the vehicle", "exit vehicle", "get out of the truck"]
      || matches1 "^get out[%p%s]*$" then some .exitVehicle
  else if word "board" && !has "board up" || hasOne ["get in the car", "get into the car",
      "get in the vehicle", "get into the vehicle", "enter the vehicle", "enter vehicle",
      "get in the truck"] || matches1 "^get in[%p%s]*$" then some .enterVehicle
  else if one ["^start%s+", "^turn on%s+"] && hasOne ["car", "vehicle", "engine", "truck"] then
    some .startVehicle
  else if matches1 "^unlock%s+" && hasOne ["car", "vehicle", "truck"] then some .unlockVehicle
  else if one ["^chop%f[%A]", "^cut%s+down%s+"] || hasOne ["fell a tree", "fell the tree"] then
    some .chopWood
  else if one ["^forage%f[%A]", "^go%s+foraging", "^gather%s+berries",
      "^look%s+for%s+food%s+outside"] then some .forage
  else if one ["^check%f[%A]", "^empty%f[%A]", "^rebait%f[%A]", "^bait%f[%A]", "^set%f[%A]",
      "^place%f[%A]", "^put%s+down%f[%A]", "^lay%f[%A]"] && has "trap" then some .checkTraps
  else if has "generator" || one ["^restore%s+power", "^fix%s+.*power", "^get%s+.*power",
      "^turn%s+on%s+.*power"] || has "electricity" then some .restorePower
  else if one ["^cook%f[%A]", "^make%s+dinner", "^make%s+food", "^make%s+.*soup",
      "^make%s+.*stew"] then some .cook
  else if one ["^bandage%s+me", "^patch%s+me%s+up", "^heal%s+me", "^treat%s+my%s+wound"]
      || hasOne ["i'm bleeding", "im bleeding"] then some .treatPlayer
  else if vehicle && one ["^refuel%f[%A]", "^fill%s+up", "^gas%s+up", "^fuel%s+up"]
      || car && fuel then some .refuelVehicle
  else if (vehicle || has "battery") && one ["^service%f[%A]", "^tune%s+up", "^charge%f[%A]",
      "^recharge%f[%A]"] then some .vehicleService
  else if vehicle && one ["^inspect%f[%A]", "^check%f[%A]", "^look%s+over"] then
    some .vehicleInspect
  else if one ["^change%s+", "^replace%s+", "^swap%s+"] && hasOne ["tire", "tyre", "flat"] then
    some .changeTire
  else if one ["^replace%s+", "^swap%s+"] && has "battery" then some .replacePart
  else if (word "kill" || word "attack") && hasOne ["zombie", "zed"] then some .attack
  else if curtain && (word "close" || word "shut" || word "draw") then some .closeCurtains
  else if hasOne ["inspect", "survey", "check"] && hasOne ["base", "house"] then some .inspectBase
  else if hasOne ["maintain", "maintenance"] && hasOne ["base", "house"] then some .maintainBase
  else if corpse && (word "corpses?" || word "bodies" || word "body") then some .moveCorpse
  else if dismantle && furnishings.any word && !has "all " && !has "every " then some .dismantle
  else if !curtain && word "open" && (word "window" || has "windows") then some .openWindow
  else if !curtain && word "open" && (word "door" || has "doors") then some .openDoor
  else if matches1 "^access%s+" || hasOne ["gain access", "get into the building",
      "get inside the building"] then some .gainAccess
  else if word "craft" || hasOne ["saw logs", "make planks"] then some .craft
  else if (word "repair" || word "fix")
      && hasOne ["car", "vehicle", "engine", "truck", "bodywork"] then some .repairVehicle
  else if (word "repair" || word "fix")
      && hasOne ["base", "house", "wall", "door", "furniture", "structure"] then
    some .repairStructure
  else if (one ["^sort%f[%A]", "^organi[sz]e%f[%A]"] || has "tidy up")
      && (hasOne ["storage", "stuff", "base", "inbox", "supplies", "items"]
        || one ["^sort[%p%s]*$", "^sort%s+everything"]) then some .sortStorage
  else if one ["^bring%s+me%s+", "^fetch%s+", "^get%s+me%s+"] then some .fetchItem
  else if one ["^put%s+away", "^put%s+your%s+stuff%s+away", "^unload%f[%A]", "^stash%s+"] then
    some .deliver
  else if word "sow" || word "plant" || hasOne ["plow", "plough", "dig a furrow"] || word "harvest"
      || hasOne ["tend the farm", "tend the crops", "water the crops", "water the plants",
        "water crops"] then some .farm
  else if hasOne ["follow me", "come with me", "come here"] then some .follow
  else if hasOne ["stay here", "wait here", "hold position", "stop here"] then some .wait
  else if hasOne ["this is base", "set base", "this is our base", "make this base",
      "home is here"] then some .setBase
  else if hasOne ["fortify the base", "fortify base"] then some .fortifyBase
  else if hasOne ["secure the base", "secure our base", "secure base", "fortify", "board up",
      "barricade"] then some .fortify
  else if has "build" then some .build
  else if hasOne ["go home", "go to base", "return to base", "take it home", "bring it home"] then
    some .returnToBase
  else if hasOne ["loot", "scavenge", "grab supplies", "find supplies"] then some .loot
  else if hasOne ["help me", "defend me", "fight", "kill the zombies"] then some .attack
  else none

/-! ## The handler -/

/-- How `applyDirect` ends: whether the order is taken, what is said of it,
and whether the companion said so. -/
structure Answer where
  applied : Bool
  detail : Bytes
  reported : Bool

/-- A chat command, with what the server answers. -/
structure Line where
  env : Authority.Env
  player : Player
  /-- `args`, as the client sends it. -/
  args : LuaValue
  /-- The name of the speaker's companion, if there is one. -/
  name : Option Identity.Name
  answer : Task → Answer

/-- `ChatBridge.lastAt`. -/
abbrev LastAt := Bytes → Option ℕ

/-- The fields of a chat event; what is `nil` is not there. -/
def eventFields (speaker text : Bytes) (token : Option Bytes) (direct : Option (Task × Answer)) :
    List (String × LuaValue) :=
  [("speaker", str speaker), ("text", str text), ("authorized", bool token.isSome),
    ("direct_applied", bool (direct.any fun d => d.2.applied)),
    ("direct_reported", bool (direct.any fun d => d.2.reported)), ("addressed", bool true)]
  ++ (token.toList.map fun token => ("authority_token", str token))
  ++ direct.toList.flatMap fun d =>
    [("direct_action", str d.1.bytes), ("direct_detail", str d.2.detail)]

/-- The handler of `OnClientCommand`: the event it hands to `EventLog.emit`,
if it does. -/
def onChat (line : Line) (lastAt : LastAt) (s : Authority.Store) :
    Option (List (String × LuaValue)) × LastAt × Authority.Store :=
  if !line.env.config.enabled then (none, lastAt, s)
  else
    match username line.player, cleanText (line.args.field "text") with
    | some speaker, some text =>
      if !mentionsGoblin text line.name then (none, lastAt, s)
      else
        let direct := (directIntent text).map fun task => (task, line.answer task)
        let now := line.env.now
        let throttled := 0 < now && (lastAt speaker).any fun last => now - last < 2000
        if throttled then (none, lastAt, s)
        else
          let (token, s) := Authority.issue line.env line.player s
          (some (eventFields speaker text token direct),
            Function.update lastAt speaker (some now), s)
    | _, _ => (none, lastAt, s)

example : directIntent (Bytes.lit "Goblin, please follow me!") = some .follow := by decide

example : directIntent (Bytes.lit "goblin don't follow me") = none := by decide

end ChatBridge

end GoblinZomboid
