import GoblinZomboid.Server.Bridge
import GoblinZomboid.Server.Grants
/-!
# Companion grants and the owner's presence

Telemetry mints a companion grant while the owner is online; the command
that spends it comes back through a file queue. The run here interleaves
both with logins and logouts, and says exactly when the owner is still
there as the command is executed.
-/

namespace GoblinZomboid

namespace Bridge

open Authority (Store Grant)

/-- The server as the bridge sees it. -/
structure World where
  config : Config
  store : Store
  seen : Seen
  online : List Player
  findByNpcId : Bytes → Option Body
  findForOwner : Bytes → Option Body

/-- What can happen between two commands, and a command. -/
inductive Event
  | login (player : Player)
  | logout (username : Bytes)
  | chat (now random : ℕ) (player : Player)
  | offlineTelemetry (now random : ℕ) (npcId : Bytes)
  | companionTelemetry (now random : ℕ) (npcId : Bytes)
  | bodies (findByNpcId findForOwner : Bytes → Option Body)
  | command (now : ℕ) (foodBusy : Bool) (message : LuaValue)

namespace World

/-- A fresh server, nobody online. -/
def init (config : Config) : World where
  config := config
  store := Store.empty
  seen := []
  online := []
  findByNpcId := fun _ => none
  findForOwner := fun _ => none

def env (w : World) (now random : ℕ) : Authority.Env := ⟨now, random, w.config, w.online⟩

@[simp] theorem env_now (w : World) (now random : ℕ) : (w.env now random).now = now := rfl

/-- The message goes through `process`. -/
def process (w : World) (now : ℕ) (foodBusy : Bool) (message : LuaValue) :
    Outcome × Seen × Store :=
  Bridge.process (w.env now 0) w.findByNpcId w.findForOwner foodBusy message w.seen w.store

def step (w : World) : Event → World
  | .login player => { w with online := player :: w.online }
  | .logout username => { w with online := w.online.filter fun p => p.username != username }
  | .chat now random player =>
    { w with store := (Authority.issue (w.env now random) player w.store).2 }
  | .offlineTelemetry now random npcId =>
    match w.findByNpcId npcId with
    | some body => { w with store := (Authority.issueOffline (w.env now random) body w.store).2 }
    | none => w
  | .companionTelemetry now random npcId =>
    match w.findByNpcId npcId with
    | some body => { w with store := (Authority.issueCompanion (w.env now random) body w.store).2 }
    | none => w
  | .bodies findByNpcId findForOwner =>
    { w with findByNpcId := findByNpcId, findForOwner := findForOwner }
  | .command now foodBusy message =>
    let r := w.process now foodBusy message
    { w with seen := r.2.1, store := r.2.2 }

/-- The grant an executed command was let through by: the one in force
under its token, when the message reaches the brain as a privileged order. -/
def executedUnder (w : World) : Event → Option (Bytes × Grant)
  | .command now foodBusy message =>
    match (w.process now foodBusy message).1 with
    | .routed (.order ..) =>
      if Authority.requires (message.field "action") then
        (Authority.messageToken message).bind fun t => (w.store.grants t).map fun g => (t, g)
      else none
    | _ => none
  | _ => none

/-! ## The store over a run -/

variable {w : World} {e : Event}

theorem evolves_valid (env : Authority.Env) (message : LuaValue) (s : Store) :
    Authority.Evolves s (valid env message s).2 none := by
  unfold valid
  split
  · exact .refl s none
  · split
    · exact .refl s none
    · exact Authority.evolves_consume env message s

theorem evolves_route (env : Authority.Env) (message : LuaValue) (body : Body) (foodBusy : Bool)
    (s : Store) : Authority.Evolves s (route env message body foodBusy s).2 none := by
  unfold route
  split
  · have h := Authority.evolves_consumeOffline env message body s
    split <;> rename_i hc <;> rwa [hc] at h
  · split <;> exact .refl s none

theorem evolves_process (w : World) (now : ℕ) (foodBusy : Bool) (message : LuaValue) :
    Authority.Evolves w.store (w.process now foodBusy message).2.2 none := by
  unfold process Bridge.process
  have hv := evolves_valid (w.env now 0) message w.store
  split
  · exact .refl _ none
  · split
    · exact .refl _ none
    · split
      · exact .refl _ none
      · split <;> rename_i hvalid <;> rw [hvalid] at hv
        · exact hv
        · split
          · exact hv
          · exact hv.trans (evolves_route _ message _ foodBusy _)

/-- The grant an event mints if it mints one. -/
def grantFor (w : World) : Event → Option Grant
  | .chat now _ player => (Authority.username player).map fun speaker =>
    .chat speaker (w.config.isAuthorizedPlayer player) now (now + Authority.grantTtlMs)
  | .offlineTelemetry now _ npcId => (w.findByNpcId npcId).map fun b =>
    .offline b.data.goblinOwner b.data.goblinID b.data.goblinGeneration b.data.goblinTaskSequence
      (now + Authority.offlineTtlMs)
  | .companionTelemetry now _ npcId => (w.findByNpcId npcId).map fun b =>
    .companion b.owner b.data.goblinID (now + Authority.companionTtlMs)
  | _ => none

/-- **The step law of the store**, for every event. -/
theorem evolves_step (w : World) (e : Event) :
    Authority.Evolves w.store (w.step e).store (w.grantFor e) := by
  cases e with
  | login player => exact .refl _ none
  | logout username => exact .refl _ none
  | bodies f g => exact .refl _ none
  | chat now random player => exact Authority.evolves_issue (w.env now random) player w.store
  | offlineTelemetry now random npcId =>
    cases hbody : w.findByNpcId npcId with
    | none => simpa [step, grantFor, hbody] using Authority.Evolves.refl w.store none
    | some b =>
      simpa [step, grantFor, hbody] using
        Authority.evolves_issueOffline (w.env now random) b w.store
  | companionTelemetry now random npcId =>
    cases hbody : w.findByNpcId npcId with
    | none => simpa [step, grantFor, hbody] using Authority.Evolves.refl w.store none
    | some b =>
      simpa [step, grantFor, hbody] using
        Authority.evolves_issueCompanion (w.env now random) b w.store
  | command now foodBusy message => exact evolves_process w now foodBusy message

/-- The bridge's grants as a capability table. -/
def capability : Capability step Bytes Grant where
  held w := w.store.grants
  taken w := Authority.NumberedUpTo w.store.sequence
  taken_step e h := h.mono (evolves_step _ e).sequence_le
  fresh {w e t g} hne hnew := by
    obtain ⟨-, -, kind, hkind, now, random, rfl⟩ := ((evolves_step w e).grants hnew).resolve_left hne
    exact Authority.not_numberedUpTo hkind
  taken_of_new {w e t g} hne hnew := by
    obtain ⟨-, hseq, kind, hkind, now, random, rfl⟩ :=
      ((evolves_step w e).grants hnew).resolve_left hne
    exact ⟨kind, hkind, now, _, random, hseq.ge, rfl⟩

/-- **A companion grant is minted by telemetry with its owner online.** -/
theorem online_of_mints_companion {t owner npcId : Bytes} {expiresAt : ℕ}
    (h : capability.Mints w e t (.companion owner npcId expiresAt)) :
    ∃ now random id, e = .companionTelemetry now random id ∧
      Authority.ownerOnline (w.env now random) owner = true := by
  have hfor : w.grantFor e = some (.companion owner npcId expiresAt) :=
    (((evolves_step w e).grants h.2).resolve_left h.1).1
  cases e with
  | companionTelemetry now random id =>
    cases hbody : w.findByNpcId id with
    | none => simp [grantFor, hbody] at hfor
    | some b =>
      simp only [grantFor, hbody, Option.map_some, Option.some.injEq, Grant.companion.injEq] at hfor
      refine ⟨now, random, id, rfl, ?_⟩
      by_contra hoff
      -- With the owner away the call returns before it touches the store.
      have hsame : (w.step (.companionTelemetry now random id)).store = w.store := by
        rw [← hfor.1] at hoff
        simp [step, hbody, Authority.issueCompanion, hoff]
      exact h.1 (by rw [← h.2]; exact congrArg (Store.grants · t) hsame.symm)
  | chat now random player => simp [grantFor] at hfor
  | offlineTelemetry now random id => simp [grantFor] at hfor
  | login => simp [grantFor] at hfor
  | logout => simp [grantFor] at hfor
  | bodies => simp [grantFor] at hfor
  | command => simp [grantFor] at hfor

/-! ## Sessions -/

/-- **A session of the user name is open after the events**: it was open
before them and they hold no logout of that name, or they hold a login of
it with no logout after. -/
def SessionOpen (online : List Player) (username : Bytes) (events : List Event) : Prop :=
  (∃ p ∈ online, p.username = username) ∧ .logout username ∉ events ∨
    ∃ before p after, events = before ++ .login p :: after ∧ p.username = username ∧
      .logout username ∉ after

theorem online_step_of_ne (hlogin : ∀ p, e ≠ .login p) (hlogout : ∀ u, e ≠ .logout u) :
    (w.step e).online = w.online := by
  cases e with
  | login p => exact absurd rfl (hlogin p)
  | logout u => exact absurd rfl (hlogout u)
  | chat => rfl
  | offlineTelemetry => dsimp only [step]; split <;> rfl
  | companionTelemetry => dsimp only [step]; split <;> rfl
  | bodies => rfl
  | command => rfl

/-- An event that is no logout of the name keeps its session, and an event
that is no login opens none. -/
theorem sessionOpen_snoc {online : List Player} {u : Bytes} {events : List Event}
    (hlogout : e ≠ .logout u) (hlogin : ∀ p, e = .login p → p.username ≠ u) :
    SessionOpen online u (events ++ [e]) ↔ SessionOpen online u events := by
  constructor
  · rintro (⟨hon, hnone⟩ | ⟨before, p, after, heq, hp, hnone⟩)
    · exact Or.inl ⟨hon, fun h => hnone (List.mem_append_left _ h)⟩
    · rcases List.eq_nil_or_concat after with rfl | ⟨after', x, rfl⟩
      · rw [List.append_singleton_inj] at heq
        exact absurd hp (hlogin p heq.2)
      · rw [List.concat_eq_append, ← List.cons_append, ← List.append_assoc,
          List.append_singleton_inj] at heq
        refine Or.inr ⟨before, p, after', heq.1, hp, fun h => hnone ?_⟩
        rw [List.concat_eq_append]
        exact List.mem_append_left _ h
  · rintro (⟨hon, hnone⟩ | ⟨before, p, after, rfl, hp, hnone⟩)
    · refine Or.inl ⟨hon, fun h => ?_⟩
      rcases List.mem_append.1 h with h | h
      · exact hnone h
      · exact hlogout (List.mem_singleton.1 h).symm
    · refine Or.inr ⟨before, p, after ++ [e], by simp, hp, fun h => ?_⟩
      rcases List.mem_append.1 h with h | h
      · exact hnone h
      · exact hlogout (List.mem_singleton.1 h).symm

/-- **Who is online**, read off the logins and logouts. -/
theorem mem_online_run_iff (w : World) (u : Bytes) (events : List Event) :
    (∃ p ∈ (Machine.run step w events).online, p.username = u) ↔
      SessionOpen w.online u events := by
  induction events using List.reverseRecOn with
  | nil => simp [SessionOpen]
  | append_singleton events e ih =>
    rw [Machine.run_snoc]
    by_cases hout : e = .logout u
    · subst hout
      constructor
      · rintro ⟨p, hp, rfl⟩
        simp [step] at hp
      · rintro (⟨-, hnone⟩ | ⟨before, p, after, heq, -, hnone⟩)
        · simp at hnone
        · rcases List.eq_nil_or_concat after with rfl | ⟨after', x, rfl⟩
          · rw [List.append_singleton_inj] at heq
            exact absurd heq.2 (by simp)
          · rw [List.concat_eq_append, ← List.cons_append, ← List.append_assoc,
              List.append_singleton_inj] at heq
            rw [List.concat_eq_append, ← heq.2] at hnone
            simp at hnone
    · by_cases hin : ∃ p, e = .login p ∧ p.username = u
      · obtain ⟨p, rfl, rfl⟩ := hin
        constructor
        · intro _
          exact Or.inr ⟨events, p, [], rfl, rfl, by simp⟩
        · intro _
          exact ⟨p, List.mem_cons_self, rfl⟩
      · have hlogin : ∀ p, e = .login p → p.username ≠ u := fun p hp hu => hin ⟨p, hp, hu⟩
        rw [sessionOpen_snoc hout hlogin, ← ih]
        cases e with
        | login p =>
          have hne := hlogin p rfl
          simp [step, hne]
        | logout u' =>
          have hne : u ≠ u' := fun h => hout (by rw [h])
          constructor
          · rintro ⟨p, hp, rfl⟩
            exact ⟨p, List.mem_of_mem_filter hp, rfl⟩
          · rintro ⟨p, hp, rfl⟩
            exact ⟨p, List.mem_filter.2 ⟨hp, by simpa using hne⟩, rfl⟩
        | chat => rfl
        | offlineTelemetry => rw [online_step_of_ne (by simp) (by simp)]
        | companionTelemetry => rw [online_step_of_ne (by simp) (by simp)]
        | bodies => rfl
        | command => rfl

theorem ownerOnline_iff (w : World) (now random : ℕ) (owner : Bytes) :
    Authority.ownerOnline (w.env now random) owner = true ↔
      ∃ u, Bytes.lower u = Bytes.lower owner ∧ ∃ p ∈ w.online, p.username = u := by
  simp only [Authority.ownerOnline, env, List.any_eq_true, beq_iff_eq]
  constructor
  · rintro ⟨p, hp, hlow⟩
    exact ⟨p.username, hlow, p, hp, rfl⟩
  · rintro ⟨u, hlow, p, hp, rfl⟩
    exact ⟨p, hp, hlow⟩

theorem executedUnder_held {t : Bytes} {g : Grant} (h : w.executedUnder e = some (t, g)) :
    w.store.grants t = some g := by
  cases e with
  | command now foodBusy message =>
    simp only [executedUnder] at h
    split at h
    · split at h
      · obtain ⟨t', -, hmap⟩ := Option.bind_eq_some_iff.1 h
        obtain ⟨g', hg', heq⟩ := Option.map_eq_some_iff.1 hmap
        simp only [Prod.mk.injEq] at heq
        rw [← heq.1, ← heq.2]
        exact hg'
      · simp at h
    · simp at h
  | login => simp [executedUnder] at h
  | logout => simp [executedUnder] at h
  | chat => simp [executedUnder] at h
  | offlineTelemetry => simp [executedUnder] at h
  | companionTelemetry => simp [executedUnder] at h
  | bodies => simp [executedUnder] at h

/-- **A companion command and its owner's session.** In every run, a
command executed under a companion grant spends one that telemetry minted
with the owner online; and the owner is online as it is executed exactly
when a session of theirs, open at the mint or opened since, has not been
closed in between. -/
theorem companion_command_online_iff (config : Config) (ops : List Event) (e : Event)
    (token owner npcId : Bytes) (expiresAt now random : ℕ)
    (h : (Machine.run step (init config) ops).executedUnder e =
      some (token, .companion owner npcId expiresAt)) :
    ∃ before mint between, ops = before ++ mint :: between ∧
      capability.Mints (Machine.run step (init config) before) mint token
        (.companion owner npcId expiresAt) ∧
      (Authority.ownerOnline ((Machine.run step (init config) before).env now random) owner =
        true) ∧
      (Authority.ownerOnline ((Machine.run step (init config) ops).env now random) owner = true ↔
        ∃ username, Bytes.lower username = Bytes.lower owner ∧
          SessionOpen (Machine.run step (init config) before).online username between) := by
  obtain ⟨before, mint, between, rfl, hmint⟩ :=
    capability.exists_mints_of_held (fun _ => rfl) (executedUnder_held h)
  obtain ⟨now', random', id, rfl, hon⟩ := online_of_mints_companion hmint
  refine ⟨before, _, between, rfl, hmint, hon, ?_⟩
  have hstay : (step (Machine.run step (init config) before)
      (.companionTelemetry now' random' id)).online =
        (Machine.run step (init config) before).online :=
    online_step_of_ne (by simp) (by simp)
  rw [ownerOnline_iff, Machine.run_append, Machine.run_cons]
  refine exists_congr fun u => and_congr_right fun _ => ?_
  rw [mem_online_run_iff, hstay]

/-! ## A run in which the owner has left -/

/-- Alice logs in, telemetry mints a companion grant for her idle
companion, and Alice logs out. -/
def aliceLeaves : List Event :=
  [.login Authority.World.alice,
    .bodies (fun id => if id = Bytes.lit "goblin.primary.alice" then
      some (Authority.World.aliceBody .follow 3) else none) (fun _ => none),
    .companionTelemetry 1000 7 (Bytes.lit "goblin.primary.alice"),
    .logout (Bytes.lit "alice")]

/-- The command that comes back through the queue half a minute later. -/
def lateSecureBase : LuaValue :=
  .ofFields [("type", .str (Bytes.lit "command.npc_action")),
    ("request_id", .str (Bytes.lit "r1")), ("action", .str (Bytes.lit "SECURE_BASE")),
    ("owner", .str (Bytes.lit "alice")), ("npc_id", .str (Bytes.lit "goblin.primary.alice")),
    ("freewill", .bool true),
    ("authority_token", .str (Authority.tokenText "companion" 1000 1 7))]

theorem companion_command_online_iff_aliceLeaves :
    (Machine.run step (init Config.default) aliceLeaves).executedUnder
        (.command 31000 false lateSecureBase) =
      some (Authority.tokenText "companion" 1000 1 7,
        .companion (Bytes.lit "alice") (Bytes.lit "goblin.primary.alice") 91000) ∧
    ∃ before mint between, aliceLeaves = before ++ mint :: between ∧
      capability.Mints (Machine.run step (init Config.default) before) mint
        (Authority.tokenText "companion" 1000 1 7)
        (.companion (Bytes.lit "alice") (Bytes.lit "goblin.primary.alice") 91000) :=
  have h : (Machine.run step (init Config.default) aliceLeaves).executedUnder
      (.command 31000 false lateSecureBase) =
        some (Authority.tokenText "companion" 1000 1 7,
          .companion (Bytes.lit "alice") (Bytes.lit "goblin.primary.alice") 91000) := by
    decide
  have ⟨before, mint, between, hops, hmint, _⟩ :=
    companion_command_online_iff Config.default aliceLeaves _ _ _ _ _ 31000 0 h
  ⟨h, before, mint, between, hops, hmint⟩

/-- **The owner may be gone.** A command is executed under a companion
grant of an owner who is not online. -/
theorem companion_command_after_logout :
    ¬ ∀ (config : Config) (ops : List Event) (now : ℕ) (foodBusy : Bool) (message : LuaValue)
      (token owner npcId : Bytes) (expiresAt : ℕ),
      (Machine.run step (init config) ops).executedUnder (.command now foodBusy message) =
        some (token, .companion owner npcId expiresAt) →
      Authority.ownerOnline ((Machine.run step (init config) ops).env now 0) owner = true := by
  intro h
  have := h Config.default aliceLeaves 31000 false lateSecureBase _ _ _ _
    (by decide : _ = some (Authority.tokenText "companion" 1000 1 7,
      Grant.companion (Bytes.lit "alice") (Bytes.lit "goblin.primary.alice") 91000))
  exact absurd this (by decide)

end World

end Bridge

end GoblinZomboid
