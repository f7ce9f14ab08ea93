import GoblinZomboid.Agent.Events
import GoblinZomboid.Lib.PyStr
/-!
# `hunt.py`: the hunt

One hunt is on at a time. The goblin survives one decisive hit, goes down
at the next and comes back after a cooldown; whoever claims the prize while
it is up ends the hunt.
-/

namespace GoblinZomboid

namespace Hunt

/-- What a call raises. -/
inductive Error
  | type
  | value
  | overflow
  /-- `UnicodeEncodeError`. -/
  | unicode
  /-- `sqlite3.Error` other than `IntegrityError`. -/
  | database
  deriving DecidableEq

/-! ## `memory.py`: the claims -/

/-- A row of `loot_claims`. -/
structure LootClaim where
  runId : PyStr
  playerId : PyStr
  claimedAt : ℤ
  deriving DecidableEq

/-- `claim_loot`, at a reading of the clock. The primary key is the run and
the player. -/
def claimLoot (rows : List LootClaim) (runId playerId : PyStr) (claimedAt : Option ℤ) (clock : ℤ)
    (fails : Bool) : Except Error (Bool × List LootClaim) :=
  if runId.isEmpty || playerId.isEmpty || 128 < runId.length || 128 < playerId.length then
    .error .value
  else
    let time := if claimedAt.getD 0 = 0 then clock else claimedAt.getD 0
    if (PyStr.encode runId).isNone || (PyStr.encode playerId).isNone then .error .unicode
    else if time < -2 ^ 63 || 2 ^ 63 ≤ time then .error .overflow
    else if fails then .error .database
    else if rows.any fun row => row.runId == runId && row.playerId == playerId then .ok (false, rows)
    else .ok (true, rows ++ [⟨runId, playerId, time⟩])

/-! ## The state -/

inductive Phase
  | active
  | dead
  | completed
  deriving DecidableEq

/-- `HuntState`. -/
structure HuntState where
  runId : PyStr
  prizeTier : PyStr
  phase : Phase
  cluesIssued : ℕ
  relocations : ℕ
  secondWindUsed : Bool
  winnerId : Option PyStr
  deathCount : ℕ
  deriving DecidableEq

/-- `HuntManager`, with the rows of its memory. -/
structure HuntManager where
  memory : List LootClaim
  respawnCooldownSeconds : ℤ
  maxRelocations : ℤ
  state : Option HuntState
  targetDigest : Option PyText
  privateTarget : Option (PyStr × PyStr)
  deadUntil : Option ℤ
  alive : Bool

/-- `HuntManager.__init__`. -/
def HuntManager.init (memory : List LootClaim) (respawnCooldownSeconds maxRelocations : ℤ) :
    HuntManager :=
  { memory := memory
    respawnCooldownSeconds := respawnCooldownSeconds
    maxRelocations := maxRelocations
    state := none
    targetDigest := none
    privateTarget := none
    deadUntil := none
    alive := true }

/-- The hunt that is on: its phase is `ACTIVE` or `DEAD`. -/
def HuntManager.current (m : HuntManager) : Option HuntState :=
  m.state.filter fun s => s.phase ≠ .completed

/-- `public_status`. -/
structure PublicStatus where
  alive : Bool
  huntActive : Bool
  prizeTier : PyStr
  deriving DecidableEq

def HuntManager.publicStatus (m : HuntManager) : PublicStatus :=
  { alive := m.alive
    huntActive := m.current.isSome
    prizeTier := (m.state.map (·.prizeTier)).getD (PyStr.lit "none") }

/-- The statuses of results. -/
inductive Status
  | alreadyActive
  | invalidTarget
  | invalidPrize
  | started
  | inactive
  | invalidTemperature
  | hint
  | relocationLimit
  | relocated
  | invalidPlayer
  | notReady
  | alreadyClaimed
  | claimed
  | dead
  | secondWind
  | notDead
  | cooldown
  | respawned
  deriving DecidableEq

def Status.text : Status → String
  | .alreadyActive => "already_active"
  | .invalidTarget => "invalid_target"
  | .invalidPrize => "invalid_prize"
  | .started => "started"
  | .inactive => "inactive"
  | .invalidTemperature => "invalid_temperature"
  | .hint => "hint"
  | .relocationLimit => "relocation_limit"
  | .relocated => "relocated"
  | .invalidPlayer => "invalid_player"
  | .notReady => "not_ready"
  | .alreadyClaimed => "already_claimed"
  | .claimed => "claimed"
  | .dead => "dead"
  | .secondWind => "second_wind"
  | .notDead => "not_dead"
  | .cooldown => "cooldown"
  | .respawned => "respawned"

/-- `HuntResult`; a hint adds its temperature and number. -/
structure HuntResult where
  accepted : Bool
  status : Status
  reason : String
  shown : PublicStatus
  clue : Option (PyStr × ℕ)
  deriving DecidableEq

/-- A result that says how the manager stands. -/
def HuntManager.result (m : HuntManager) (accepted : Bool) (status : Status) (reason : String) :
    HuntResult := ⟨accepted, status, reason, m.publicStatus, none⟩

/-- What a call answers or raises, and what it leaves. -/
abbrev Answer := Except Error HuntResult × HuntManager

def HuntManager.refuse (m : HuntManager) (status : Status) (reason : String) : Answer :=
  (.ok (m.result false status reason), m)

def HuntManager.accept (m : HuntManager) (status : Status) (reason : String) : Answer :=
  (.ok (m.result true status reason), m)

/-! ## Checking arguments -/

/-- `v in {…}` for a set of literals: a list or a dictionary has no hash. -/
def isIn (v : PyData) (names : List String) : Except Error (Option PyStr) :=
  match v with
  | .str t => .ok (if names.any fun name => PyStr.lit name == t then some t else none)
  | .list _ | .dict _ => .error .type
  | _ => .ok none

/-- `text.strip()`. -/
def strip (t : PyStr) : PyStr :=
  (((t.dropWhile PyStr.isSpace).reverse).dropWhile PyStr.isSpace).reverse

/-- `_UNSAFE_LABEL`: the expression event texts are checked with. -/
def unsafeLabel : PyRegex.Rx := Events.textLocation

/-- A string as the expression reads it: a lone surrogate is in no class of
its, like a control character. -/
def legible (t : PyStr) : PyText :=
  t.map fun
    | .char c => c
    | .lone _ => '\x00'

/-- `_safe_label`: the label, if it is safe. -/
def safeLabel (u : Unicode) : PyData → Option PyStr
  | .str t =>
    if !(strip t).isEmpty && t.length ≤ 96 && !PyRegex.search u unsafeLabel (legible t) then some t
    else none
  | _ => none

def targetKinds : List String := ["nearby_building", "area", "named_location"]

section

variable (u : Unicode) (sha256 : PyText → PyText) (m : HuntManager)

/-- The hidden target: it is kept, and its digest unless it cannot be encoded. -/
def hide (targetKind label : PyStr) : Except Error PyText × HuntManager :=
  let hidden := { m with privateTarget := some (targetKind, strip label) }
  match PyStr.encode (targetKind ++ PyStr.lit ":" ++ PyStr.casefold u (strip label)) with
  | some normalized => (.ok (sha256 normalized), hidden)
  | none => (.error .unicode, hidden)

/-! ## The operations -/

/-- `start`, with the token `secrets` draws. -/
def start (targetKind targetLabel prizeTier : PyData) (token : PyStr) : Answer :=
  if m.current.isSome then m.refuse .alreadyActive "hunt is already active"
  else
    match isIn targetKind targetKinds with
    | .error e => (.error e, m)
    | .ok none => m.refuse .invalidTarget "target must be coarse"
    | .ok (some kind) =>
      match safeLabel u targetLabel with
      | none => m.refuse .invalidTarget "target label is invalid"
      | some label =>
        match isIn prizeTier ["common", "uncommon", "rare", "legendary"] with
        | .error e => (.error e, m)
        | .ok none => m.refuse .invalidPrize "unknown prize tier"
        | .ok (some tier) =>
          match hide u sha256 m kind label with
          | (.error e, m) => (.error e, m)
          | (.ok digest, m) =>
            HuntManager.accept
              { m with
                targetDigest := some digest
                state := some ⟨PyStr.lit "hunt-" ++ token, tier, .active, 0, 0, false, none, 0⟩
                deadUntil := none
                alive := true }
              .started "hunt started"

/-- The texts of `hint`. -/
def clue (temperature : PyStr) : String :=
  if temperature == PyStr.lit "cold" then
    "The trail is old. Search the edges, not the obvious center."
  else if temperature == PyStr.lit "warm" then
    "Something useful passed through nearby. Look for a place people once relied on."
  else "The goblin is close enough to hear you making poor decisions."

/-- `hint`. -/
def hint (temperature : PyData) : Answer :=
  match m.current with
  | none => m.refuse .inactive "no active hunt"
  | some s =>
    match isIn temperature ["cold", "warm", "hot"] with
    | .error e => (.error e, m)
    | .ok none => m.refuse .invalidTemperature "temperature is invalid"
    | .ok (some temperature) =>
      let m' := { m with state := some { s with cluesIssued := s.cluesIssued + 1 } }
      (.ok { m'.result true .hint (clue temperature) with
        clue := some (temperature, s.cluesIssued + 1) }, m')

/-- `relocate`. -/
def relocate (targetKind targetLabel : PyData) : Answer :=
  match m.current with
  | none => m.refuse .inactive "no active hunt"
  | some s =>
    if m.maxRelocations ≤ s.relocations then
      m.refuse .relocationLimit "relocation limit reached"
    else
      match isIn targetKind targetKinds with
      | .error e => (.error e, m)
      | .ok none => m.refuse .invalidTarget "target must be coarse"
      | .ok (some kind) =>
        match safeLabel u targetLabel with
        | none => m.refuse .invalidTarget "target label is invalid"
        | some label =>
          match hide u sha256 m kind label with
          | (.error e, m) => (.error e, m)
          | (.ok digest, m) =>
            HuntManager.accept
              { m with
                targetDigest := some digest
                state := some { s with relocations := s.relocations + 1, cluesIssued := 0 } }
              .relocated "hunt target changed"

/-- The player a claim names, if it is a name. -/
def claimant : PyData → Option PyStr
  | .str t => if t.isEmpty || 128 < t.length then none else some t
  | _ => none

/-- `claim`. -/
def claim (playerId nearTarget : PyData) (now : Option ℤ) (clock : ℤ) (fails : Bool) : Answer :=
  match m.state.filter fun s => s.phase = .active with
  | none => m.refuse .inactive "no claimable hunt"
  | some s =>
    match claimant playerId with
    | none => m.refuse .invalidPlayer "player identity is invalid"
    | some player =>
      match nearTarget with
      | .bool true =>
        match claimLoot m.memory s.runId player now clock fails with
        | .error e => (.error e, m)
        | .ok (false, rows) =>
          HuntManager.refuse { m with memory := rows } .alreadyClaimed "loot was already claimed"
        | .ok (true, rows) =>
          HuntManager.accept
            { m with
              memory := rows
              state := some { s with winnerId := some player, phase := .completed } }
            .claimed "prize cache claimed"
      | _ => m.refuse .notReady "deterministic proximity gate has not passed"

/-- `damage`, at a reading of the clock. -/
def damage (now : Option ℤ) (clock : ℤ) : Answer :=
  match m.current with
  | none => m.refuse .inactive "hunt is not active"
  | some s =>
    if !m.alive then m.refuse .dead "Goblin is already down"
    else if s.secondWindUsed then
      HuntManager.accept
        { m with
          alive := false
          state := some { s with phase := .dead, deathCount := s.deathCount + 1 }
          deadUntil := some (now.getD clock + m.respawnCooldownSeconds) }
        .dead "second wind was already spent"
    else
      HuntManager.accept { m with state := some { s with secondWindUsed := true } }
        .secondWind "Goblin survives one decisive hit"

/-- `respawn`, at a reading of the clock. -/
def respawn (now : Option ℤ) (clock : ℤ) : Answer :=
  match m.state.filter fun s => s.phase = .dead with
  | none => m.refuse .notDead "Goblin is not waiting to respawn"
  | some s =>
    if m.deadUntil.all fun deadUntil => now.getD clock < deadUntil then
      m.refuse .cooldown "respawn cooldown is active"
    else
      HuntManager.accept
        { m with alive := true, deadUntil := none, state := some { s with phase := .active } }
        .respawned "Goblin returned after cooldown"

end

/-- A call, with all it is given: its arguments but for a `now` that nothing
reads, the clock, the token that is drawn, and whether the database fails. -/
inductive Call
  | start (targetKind targetLabel prizeTier : PyData) (token : PyStr)
  | hint (temperature : PyData)
  | relocate (targetKind targetLabel : PyData)
  | claim (playerId nearTarget : PyData) (now : Option ℤ) (clock : ℤ) (fails : Bool)
  | damage (now : Option ℤ) (clock : ℤ)
  | respawn (now : Option ℤ) (clock : ℤ)

/-- One call. -/
def perform (u : Unicode) (sha256 : PyText → PyText) (m : HuntManager) : Call → Answer
  | .start targetKind targetLabel prizeTier token =>
    start u sha256 m targetKind targetLabel prizeTier token
  | .hint temperature => hint m temperature
  | .relocate targetKind targetLabel => relocate u sha256 m targetKind targetLabel
  | .claim playerId nearTarget now clock fails => claim m playerId nearTarget now clock fails
  | .damage now clock => damage m now clock
  | .respawn now clock => respawn m now clock

/-- The time a call goes by: `int(now if now is not None else time.time())`. -/
def Call.time : Call → Option ℤ
  | .damage now clock | .respawn now clock => some (now.getD clock)
  | _ => none

end Hunt

end GoblinZomboid
