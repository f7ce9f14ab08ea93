import GoblinZomboid.Agent.History
/-!
# Whom the service speaks for

Every command names the body of one companion record and that record's
owner. In the turn of a chat the record is the speaker's, letter case
apart, and the owner is written as the speaker writes it.
-/

namespace GoblinZomboid

namespace Service

open Protocol (Dict Message)
open Controllers (Intent)

/-- **Speaker isolation.** Whatever is polled, answered, thought or said, and
wherever a turn fails or is stopped: a command is for the body of one record
that was read, in the name of its owner. All that a chat turn publishes is for
one record, the speaker's. -/
theorem published_for_one_companion (config : Config) (desk : Ipc.Desk) (window : ℤ)
    (ops : List Op) :
    let s := Machine.run (step config) (start config desk window) ops
    ∀ m turn, (m, turn) ∈ s.published →
      match turn with
      | some (.chat chat) => ∃ c ∈ s.records, ∃ speaker,
          field chat.fields "speaker" = .str speaker ∧ ownedBy config.unicode speaker c = true ∧
            ∀ m', (m', turn) ∈ s.published → Names (npcIdOf c) (.str speaker) m'
      | _ => ∃ c ∈ s.records, Names (npcIdOf c) (field c "owner") m := by
  intro s m turn hm
  have hinv := inv_run config desk window ops
  split
  · exact hinv.spoken m _ hm
  · rename_i hother
    refine hinv.belongs m turn hm ?_
    unfold isChat
    split
    · rename_i chat
      exact absurd rfl (hother chat)
    · rfl

/-! ## Two names that differ in letter case -/

/-- The record of a companion that is ready. -/
def readyRecord (npcId owner : String) : Dict :=
  [(PyText.lit "npc_id", .str (PyText.lit npcId)), (PyText.lit "owner", .str (PyText.lit owner)),
    (PyText.lit "body_present", .bool true), (PyText.lit "control_ready", .bool true),
    (PyText.lit "npc_engine_ready", .bool true)]

/-- The event of a chat whose order the game has taken. -/
def directChat (speaker : String) : Ipc.Item where
  reading := .value (.dict [(PyText.lit "protocol", .int 2),
    (PyText.lit "request_id", .str (PyText.lit "chat-1")), (PyText.lit "timestamp_ms", .int 1),
    (PyText.lit "type", .str (PyText.lit "event.chat")),
    (PyText.lit "speaker", .str (PyText.lit speaker)),
    (PyText.lit "text", .str (PyText.lit "goblin follow")),
    (PyText.lit "direct_action", .str (PyText.lit "FOLLOW")),
    (PyText.lit "direct_applied", .bool true)])
  write := .ok

/-- To follow a player. -/
def follow : Intent where
  intent := PyText.lit "FOLLOW"
  priority := some 1
  target := some ⟨some (PyText.lit "player"), some (PyText.lit "ann"), none, none⟩
  candidate := none
  item := none
  members := none
  requestedMembers := []
  npcId := none
  leader := none
  job := none
  formation := none
  text := none
  squadId := none
  lootFocus := none

/-- An outside that answers every question alike: this event is there, and
these records are in the state. -/
def steady (item : Ipc.Item) (records : List Dict) : Turns Answer := fun _ =>
  { killed := false
    fails := none
    now := 0
    nowMs := 5
    items := [item]
    state := some (PyText.lit "runtime.state",
      [(PyText.lit "companions", .list (records.map .dict))])
    allowed := true
    waits := 0
    text := PyText.lit "On my way."
    intent := follow
    reflex := ⟨false, none, none⟩
    yes := false
    remark := none
    wants := fun _ => none
    due := fun _ => none
    meetup := none
    lines := []
    done := fun _ => false
    requestId := PyText.lit "command-1"
    written := true }

/-- A service without a model. -/
def plainConfig : Config := ⟨.ascii, true, false, none, 1, ⟨4, 120000⟩⟩

/-- A pass over these records, when this chat is waiting. -/
def speaks (speaker : String) (records : List Dict) : State :=
  Machine.run (step plainConfig) (start plainConfig ⟨[], none, 0, [], []⟩ 10)
    [.runOnce (steady (directChat speaker) records)]

/-- The body and the owner a dictionary names. -/
def named (d : Dict) : Option PyText × Option PyText :=
  ((field d "npc_id").str?, (field d "owner").str?)

/-- A name of 97 letters. -/
def longName : String := String.ofList (List.replicate 97 'a')

/-- **The companion of ann answers ANN.** Letter case apart the names are one,
so the command is for the body of ann's companion in the name of ANN, and the
record of neither names both. A long name is cut, so no record names it. -/
theorem answered_by_namesake :
    (¬ ∀ e ∈ (speaks "ANN" [readyRecord "npc.a" "ann", readyRecord "npc.b" "ANN"]).published,
      ∃ c ∈ [readyRecord "npc.a" "ann", readyRecord "npc.b" "ANN"],
        named e.1.fields = named c) ∧
    (¬ ∀ e ∈ (speaks longName [readyRecord "npc.a" longName]).published,
      ∃ c ∈ [readyRecord "npc.a" longName], named e.1.fields = named c) := by
  constructor <;> decide +kernel

end Service

end GoblinZomboid
