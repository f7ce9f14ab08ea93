import GoblinZomboid.Server.Authority
import GoblinZomboid.Lib.Capability
import Mathlib.Order.Nat
/-!
# Grants over a run

The grant table under every interleaving of the calls that mint and
consume, with the bodies changing in between. A token is minted under a
sequence number no other token has, so a grant used up stays used up;
what a use requires depends on the kind of the grant.
-/

namespace GoblinZomboid

namespace Authority

/-! ## What a call does to the store -/

/-- The text of a token determines its sequence number. -/
theorem sequence_eq_of_tokenText_eq {k k' : String} {now now' n n' r r' : ℕ}
    (hk : 45 ∉ Bytes.lit k) (hk' : 45 ∉ Bytes.lit k')
    (h : tokenText k now n r = tokenText k' now' n' r') : n = n' := by
  have hdash : ∀ m, (45 : UInt8) ∉ Bytes.decimal m := fun m hm =>
    absurd (Bytes.isDigit_of_mem_decimal hm) (by decide)
  have hlit : Bytes.lit "-" = [45] := by decide
  simp only [tokenText, hlit, List.append_assoc, List.singleton_append] at h
  obtain ⟨-, h⟩ := Bytes.append_cons_inj_of_notMem hk hk' h
  obtain ⟨-, h⟩ := Bytes.append_cons_inj_of_notMem (hdash _) (hdash _) h
  obtain ⟨h, -⟩ := Bytes.append_cons_inj_of_notMem (hdash _) (hdash _) h
  exact Bytes.decimal_injective h

/-- The words a token starts with. -/
def tokenKinds : List String := ["grant", "offline", "companion"]

theorem dash_notMem_of_tokenKind {k : String} (h : k ∈ tokenKinds) : 45 ∉ Bytes.lit k := by
  simp only [tokenKinds, List.mem_cons, List.not_mem_nil, or_false] at h
  rcases h with rfl | rfl | rfl <;> decide

/-- The token has been minted under a sequence number up to `n`. -/
def NumberedUpTo (n : ℕ) (token : Bytes) : Prop :=
  ∃ kind ∈ tokenKinds, ∃ now m random, m ≤ n ∧ token = tokenText kind now m random

theorem NumberedUpTo.mono {n n' : ℕ} {token : Bytes} (h : NumberedUpTo n token) (hn : n ≤ n') :
    NumberedUpTo n' token := by
  obtain ⟨kind, hkind, now, m, random, hm, rfl⟩ := h
  exact ⟨kind, hkind, now, m, random, hm.trans hn, rfl⟩

theorem not_numberedUpTo {kind : String} (hkind : kind ∈ tokenKinds) {now n random : ℕ} :
    ¬ NumberedUpTo n (tokenText kind now (n + 1) random) := by
  rintro ⟨kind', hkind', now', m, random', hm, h⟩
  have := sequence_eq_of_tokenText_eq (dash_notMem_of_tokenKind hkind)
    (dash_notMem_of_tokenKind hkind') h
  omega

/-- **What a call may do to the store**: it keeps or removes grants, or
mints the grant named, under the next sequence number. -/
structure Evolves (s s' : Store) (minted : Option Grant) : Prop where
  sequence_le : s.sequence ≤ s'.sequence
  grants : ∀ {t g}, s'.grants t = some g → s.grants t = some g ∨
    minted = some g ∧ s'.sequence = s.sequence + 1 ∧ ∃ kind ∈ tokenKinds, ∃ now random,
      t = tokenText kind now (s.sequence + 1) random

theorem Evolves.refl (s : Store) (minted : Option Grant) : Evolves s s minted :=
  ⟨Nat.le_refl _, Or.inl⟩

theorem purge_grants {s : Store} {now : ℕ} {t : Bytes} {g : Grant} :
    (purge s now).grants t = some g ↔ s.grants t = some g ∧ now < g.expiresAt := by
  simp [purge, Option.filter_eq_some_iff]

@[simp] theorem purge_sequence (s : Store) (now : ℕ) : (purge s now).sequence = s.sequence := rfl

@[simp] theorem purge_offlineByNpc (s : Store) (now : ℕ) :
    (purge s now).offlineByNpc = s.offlineByNpc := rfl

@[simp] theorem purge_companionByNpc (s : Store) (now : ℕ) :
    (purge s now).companionByNpc = s.companionByNpc := rfl

theorem spend_grants {s : Store} {token : Bytes} {grant : Grant} :
    (spend s token grant).grants = Function.update s.grants token none := by
  cases grant <;> rfl

@[simp] theorem spend_sequence {s : Store} {token : Bytes} {grant : Grant} :
    (spend s token grant).sequence = s.sequence := by
  cases grant <;> rfl

variable {env : Env} {s s' s'' : Store} {message : LuaValue} {body : Body} {player : Player}

theorem evolves_purge (s : Store) (now : ℕ) (minted : Option Grant) :
    Evolves s (purge s now) minted :=
  ⟨Nat.le_refl _, fun h => Or.inl (purge_grants.1 h).1⟩

/-- Removing a grant mints nothing. -/
theorem evolves_remove {token : Bytes} (hseq : s.sequence ≤ s'.sequence)
    (hgrants : s'.grants = Function.update s.grants token none) (minted : Option Grant) :
    Evolves s s' minted := by
  refine ⟨hseq, fun {t g} hg => Or.inl ?_⟩
  rw [hgrants] at hg
  by_cases ht : t = token
  · subst ht; simp at hg
  · rwa [Function.update_of_ne ht] at hg

/-- Writing a grant under the next number mints it. -/
theorem evolves_mint (kind : String) (hkind : kind ∈ tokenKinds) {now random : ℕ} {grant : Grant}
    (hseq : s'.sequence = s.sequence + 1)
    (hgrants : s'.grants =
      Function.update s.grants (tokenText kind now (s.sequence + 1) random) (some grant)) :
    Evolves s s' (some grant) := by
  refine ⟨by omega, fun {t g} hg => ?_⟩
  rw [hgrants] at hg
  by_cases ht : t = tokenText kind now (s.sequence + 1) random
  · rw [ht, Function.update_self] at hg
    exact Or.inr ⟨hg, hseq, kind, hkind, now, random, ht⟩
  · rw [Function.update_of_ne ht] at hg
    exact Or.inl hg

/-- Steps that leave the number alone may come before. -/
theorem Evolves.after {minted : Option Grant} (h' : Evolves s' s'' minted)
    (h : Evolves s s' none) (hseq : s'.sequence = s.sequence) : Evolves s s'' minted := by
  refine ⟨h.sequence_le.trans h'.sequence_le, fun hg => ?_⟩
  rcases h'.grants hg with hold | hnew
  · exact Or.inl ((h.grants hold).resolve_right (by simp))
  · rw [hseq] at hnew
    exact Or.inr hnew

/-- Two steps that mint nothing are one. -/
theorem Evolves.trans (h : Evolves s s' none) (h' : Evolves s' s'' none) : Evolves s s'' none :=
  ⟨h.sequence_le.trans h'.sequence_le, fun hg =>
    Or.inl ((h.grants ((h'.grants hg).resolve_right (by simp))).resolve_right (by simp))⟩

@[simp] theorem dropGrant_sequence (s : Store) (previous : Option Bytes) :
    (dropGrant s previous).sequence = s.sequence := by
  cases previous <;> rfl

theorem evolves_dropGrant (s : Store) (previous : Option Bytes) :
    Evolves s (dropGrant s previous) none := by
  cases previous with
  | none => exact Evolves.refl s none
  | some token => exact evolves_remove (dropGrant_sequence s (some token)).ge rfl none

theorem evolves_issue (env : Env) (player : Player) (s : Store) :
    Evolves s (issue env player s).2 ((username player).map fun speaker =>
      .chat speaker (env.config.isAuthorizedPlayer player) env.now (env.now + grantTtlMs)) := by
  cases hname : username player with
  | none => simpa [issue, hname] using Evolves.refl s none
  | some speaker =>
    simp only [issue, hname, Option.map_some]
    split
    · exact ⟨by simp, fun h => Or.inl (purge_grants.1 h).1⟩
    · exact (evolves_mint "grant" (by simp [tokenKinds]) rfl rfl).after
        (evolves_purge s env.now none) rfl

theorem evolves_issueOffline (env : Env) (body : Body) (s : Store) :
    Evolves s (issueOffline env body s).2 (some (.offline body.data.goblinOwner
      body.data.goblinID body.data.goblinGeneration body.data.goblinTaskSequence
      (env.now + offlineTtlMs))) := by
  unfold issueOffline
  split
  · exact Evolves.refl s _
  · dsimp only
    split
    · exact evolves_purge s env.now _
    · have hdrop : Evolves s (dropGrant (purge s env.now)
          ((purge s env.now).offlineByNpc body.data.goblinID)) none :=
        (evolves_dropGrant _ _).after (evolves_purge s env.now none) rfl
      exact (evolves_mint "offline" (by simp [tokenKinds]) rfl rfl).after hdrop (by simp)

theorem evolves_issueCompanion (env : Env) (body : Body) (s : Store) :
    Evolves s (issueCompanion env body s).2 (some (.companion body.owner body.data.goblinID
      (env.now + companionTtlMs))) := by
  unfold issueCompanion
  split
  · exact Evolves.refl s _
  · dsimp only
    split
    · exact evolves_purge s env.now _
    · exact (evolves_mint "companion" (by simp [tokenKinds]) rfl rfl).after
        (evolves_purge s env.now none) rfl

/-! ## What a use requires -/

theorem spend_grants_self {token : Bytes} {grant : Grant} :
    (spend s token grant).grants token = none := by
  rw [spend_grants, Function.update_self]

/-- **An accepted privileged message** names a grant in force, meets its
conditions and uses it up. -/
theorem consume_accepts (hreq : requires (message.field "action") = true)
    (h : (consume env message s).1 = true) :
    ∃ token grant, messageToken message = some token ∧ s.grants token = some grant ∧
      env.now < grant.expiresAt ∧ consumable message grant = true ∧
      (consume env message s).2.grants token = none := by
  unfold consume at h ⊢
  simp only [hreq, Bool.not_true, Bool.false_eq_true, if_false] at h ⊢
  cases htok : messageToken message with
  | none => simp [htok] at h
  | some token =>
    simp only [htok] at h ⊢
    cases hgrant : (purge s env.now).grants token with
    | none => simp [hgrant] at h
    | some grant =>
      simp only [hgrant] at h ⊢
      by_cases hc : consumable message grant
      · obtain ⟨hheld, hlive⟩ := purge_grants.1 hgrant
        exact ⟨token, grant, rfl, hheld, hlive, hc, by rw [if_pos hc]; exact spend_grants_self⟩
      · rw [if_neg hc] at h
        exact absurd h (by simp)

theorem evolves_consume (env : Env) (message : LuaValue) (s : Store) :
    Evolves s (consume env message s).2 none := by
  unfold consume
  split
  · exact Evolves.refl s none
  · split
    · exact Evolves.refl s none
    · dsimp only
      split
      · exact evolves_purge s env.now none
      · split
        · exact (evolves_remove (by simp) spend_grants none).after
            (evolves_purge s env.now none) rfl
        · exact evolves_purge s env.now none

/-- **An accepted offline message**, likewise. -/
theorem consumeOffline_accepts (h : (consumeOffline env message body s).1 = true) :
    actionIn message offlineActions = true ∧ offlineBodyReady env body = true ∧
      ∃ token grant, messageToken message = some token ∧ s.grants token = some grant ∧
        env.now < grant.expiresAt ∧ consumableOffline message body.data grant = true ∧
        (consumeOffline env message body s).2.grants token = none := by
  unfold consumeOffline at h ⊢
  by_cases hready : (actionIn message offlineActions && offlineBodyReady env body) = true
  · rw [hready] at h ⊢
    rw [Bool.and_eq_true] at hready
    refine ⟨hready.1, hready.2, ?_⟩
    simp only [Bool.not_true, Bool.false_eq_true, if_false] at h ⊢
    cases htok : messageToken message with
    | none => simp [htok] at h
    | some token =>
      simp only [htok] at h ⊢
      cases hgrant : (purge s env.now).grants token with
      | none => simp [hgrant] at h
      | some grant =>
        simp only [hgrant] at h ⊢
        by_cases hc : consumableOffline message body.data grant
        · obtain ⟨hheld, hlive⟩ := purge_grants.1 hgrant
          exact ⟨token, grant, rfl, hheld, hlive, hc, by rw [if_pos hc]; exact spend_grants_self⟩
        · rw [if_neg hc] at h
          exact absurd h (by simp)
  · simp [hready] at h

theorem evolves_consumeOffline (env : Env) (message : LuaValue) (body : Body) (s : Store) :
    Evolves s (consumeOffline env message body s).2 none := by
  unfold consumeOffline
  split
  · exact Evolves.refl s none
  · split
    · exact Evolves.refl s none
    · dsimp only
      split
      · exact evolves_purge s env.now none
      · split
        · exact (evolves_remove (by simp) spend_grants none).after
            (evolves_purge s env.now none) rfl
        · exact evolves_purge s env.now none

/-! ## Runs of calls -/

/-- The store, and the bodies the bridge resolves an npc id to. -/
structure World where
  store : Store
  bodies : Bytes → Option Body

/-- One call, or a change of a body: a respawn, an order, a death. -/
inductive Call
  | issue (env : Env) (player : Player)
  | issueOffline (env : Env) (npcId : Bytes)
  | issueCompanion (env : Env) (npcId : Bytes)
  | consume (env : Env) (message : LuaValue)
  | consumeOffline (env : Env) (message : LuaValue) (npcId : Bytes)
  | body (npcId : Bytes) (body : Option Body)

namespace World

/-- A fresh server with no bodies. -/
def init : World := ⟨Store.empty, fun _ => none⟩

/-- The store a call on the body of this id leaves. -/
def onBody (w : World) (npcId : Bytes) (f : Body → Store → Store) : World :=
  match w.bodies npcId with
  | some body => { w with store := f body w.store }
  | none => w

def step (w : World) : Call → World
  | .issue env player => { w with store := (Authority.issue env player w.store).2 }
  | .issueOffline env npcId => w.onBody npcId fun b s => (Authority.issueOffline env b s).2
  | .issueCompanion env npcId => w.onBody npcId fun b s => (Authority.issueCompanion env b s).2
  | .consume env message => { w with store := (Authority.consume env message w.store).2 }
  | .consumeOffline env message npcId =>
    w.onBody npcId fun b s => (Authority.consumeOffline env message b s).2
  | .body npcId body => { w with bodies := Function.update w.bodies npcId body }

/-- The grant a call mints if it mints one. -/
def grantFor (w : World) : Call → Option Grant
  | .issue env player => (username player).map fun speaker =>
    .chat speaker (env.config.isAuthorizedPlayer player) env.now (env.now + grantTtlMs)
  | .issueOffline env npcId => (w.bodies npcId).map fun b =>
    .offline b.data.goblinOwner b.data.goblinID b.data.goblinGeneration b.data.goblinTaskSequence
      (env.now + offlineTtlMs)
  | .issueCompanion env npcId => (w.bodies npcId).map fun b =>
    .companion b.owner b.data.goblinID (env.now + companionTtlMs)
  | _ => none

/-- The token under which a call lets a privileged message through. -/
def authorised (w : World) : Call → Option Bytes
  | .consume env message =>
    if requires (message.field "action") && (Authority.consume env message w.store).1
    then messageToken message else none
  | .consumeOffline env message npcId =>
    match w.bodies npcId with
    | some body =>
      if (Authority.consumeOffline env message body w.store).1 then messageToken message else none
    | none => none
  | _ => none

/-- **What each kind of grant permits.** A chat grant binds its speaker, a
companion grant its owner and its body's id, an offline grant the order
the body is at. -/
def Permits (w : World) : Call → Grant → Prop
  | .consume env message, .chat speaker commander _ expiresAt =>
    env.now < expiresAt ∧ ownerMatches message speaker = true ∧
      (commander = true ∨ actionIn message ownerJobs = true)
  | .consume env message, .companion owner npcId expiresAt =>
    env.now < expiresAt ∧ (message.field "freewill").isTrue = true ∧
      fieldIs message "npc_id" npcId = true ∧ ownerMatches message owner = true ∧
      actionIn message ownerJobs = true
  | .consumeOffline env message npcId, .offline owner grantNpc generation taskSequence expiresAt =>
    env.now < expiresAt ∧ actionIn message offlineActions = true ∧
      fieldIs message "owner" owner = true ∧ fieldIs message "npc_id" grantNpc = true ∧
      ∃ body, w.bodies npcId = some body ∧ body.data.goblinGeneration = generation ∧
        body.data.goblinTaskSequence = taskSequence
  | _, _ => False

variable {w : World} {c : Call} {token : Bytes}

theorem evolves_onBody {f : Body → Store → Store} {npcId : Bytes} {minted : Body → Option Grant}
    (h : ∀ b, Evolves w.store (f b w.store) (minted b)) :
    Evolves w.store (w.onBody npcId f).store ((w.bodies npcId).bind minted) := by
  unfold onBody
  cases w.bodies npcId with
  | none => exact Evolves.refl _ _
  | some b => exact h b

/-- **The step law of the store**, for every call. -/
theorem evolves_step (w : World) (c : Call) :
    Evolves w.store (w.step c).store (w.grantFor c) := by
  cases c with
  | issue env player => exact evolves_issue env player w.store
  | issueOffline env npcId =>
    simp only [grantFor, Option.map_eq_bind]
    exact evolves_onBody fun b => evolves_issueOffline env b w.store
  | issueCompanion env npcId =>
    simp only [grantFor, Option.map_eq_bind]
    exact evolves_onBody fun b => evolves_issueCompanion env b w.store
  | consume env message => exact evolves_consume env message w.store
  | consumeOffline env message npcId =>
    have h : Evolves w.store (w.onBody npcId fun b s =>
        (Authority.consumeOffline env message b s).2).store ((w.bodies npcId).bind fun _ => none) :=
      evolves_onBody fun b => evolves_consumeOffline env message b w.store
    cases hbody : w.bodies npcId <;> rwa [hbody] at h
  | body npcId body => exact Evolves.refl w.store none

/-- **What a use shows**: the token named a grant in force, the grant
permits the message, and it is gone afterwards. -/
theorem permits_of_authorised (h : w.authorised c = some token) :
    ∃ grant, w.store.grants token = some grant ∧ w.Permits c grant ∧
      (w.step c).store.grants token = none := by
  cases c with
  | consume env message =>
    simp only [authorised] at h
    split at h
    · rename_i hacc
      rw [Bool.and_eq_true] at hacc
      obtain ⟨t, grant, ht, hheld, hlive, hok, hgone⟩ := consume_accepts hacc.1 hacc.2
      obtain rfl : t = token := Option.some.inj (ht.symm.trans h)
      refine ⟨grant, hheld, ?_, hgone⟩
      cases grant with
      | chat speaker commander issuedAt expiresAt =>
        simp only [consumable, Bool.and_eq_true, Bool.or_eq_true] at hok
        exact ⟨hlive, hok.1, hok.2⟩
      | offline => simp [consumable] at hok
      | companion owner npcId expiresAt =>
        simp only [consumable, Bool.and_eq_true] at hok
        exact ⟨hlive, hok.1.1.1, hok.1.1.2, hok.1.2, hok.2⟩
    · exact absurd h (by simp)
  | consumeOffline env message npcId =>
    cases hbody : w.bodies npcId with
    | none => simp [authorised, hbody] at h
    | some b =>
      simp only [authorised, hbody] at h
      split at h
      · rename_i hacc
        obtain ⟨haction, -, t, grant, ht, hheld, hlive, hok, hgone⟩ := consumeOffline_accepts hacc
        obtain rfl : t = token := Option.some.inj (ht.symm.trans h)
        refine ⟨grant, hheld, ?_, by simpa [step, onBody, hbody] using hgone⟩
        cases grant with
        | chat => simp [consumableOffline] at hok
        | companion => simp [consumableOffline] at hok
        | offline owner grantNpc generation taskSequence expiresAt =>
          simp only [consumableOffline, Bool.and_eq_true, beq_iff_eq] at hok
          exact ⟨hlive, haction, hok.1.1.1, hok.1.1.2, b, hbody, hok.1.2.symm, hok.2.symm⟩
      · exact absurd h (by simp)
  | issue => simp [authorised] at h
  | issueOffline => simp [authorised] at h
  | issueCompanion => simp [authorised] at h
  | body => simp [authorised] at h

/-- The grant table as a capability table: a token is taken once its
number is behind the counter. -/
def capability : Capability step Bytes Grant where
  held w := w.store.grants
  taken w := NumberedUpTo w.store.sequence
  taken_step c h := h.mono (evolves_step _ c).sequence_le
  fresh {w c t g} hne hnew := by
    obtain ⟨-, -, kind, hkind, now, random, rfl⟩ := ((evolves_step w c).grants hnew).resolve_left hne
    exact not_numberedUpTo hkind
  taken_of_new {w c t g} hne hnew := by
    obtain ⟨-, hseq, kind, hkind, now, random, rfl⟩ :=
      ((evolves_step w c).grants hnew).resolve_left hne
    exact ⟨kind, hkind, now, _, random, hseq.ge, rfl⟩

/-- A minted grant is the one its call says. -/
theorem grantFor_of_mints {t : Bytes} {g : Grant} (h : capability.Mints w c t g) :
    w.grantFor c = some g :=
  (((evolves_step w c).grants h.2).resolve_left h.1).1

/-- **Grants are one-use.** In every run, a token a message is let through
under was minted by an earlier call, for a grant that permits the message
at that moment; and no later message is let through under it. -/
theorem grants_oneUse (pre : List Call) (c : Call) (token : Bytes)
    (h : (Machine.run step init pre).authorised c = some token) :
    (∃ before m between grant, pre = before ++ m :: between ∧
        capability.Mints (Machine.run step init before) m token grant ∧
        (Machine.run step init before).grantFor m = some grant ∧
        (Machine.run step init pre).Permits c grant) ∧
      ∀ later d, (Machine.run step init (pre ++ c :: later)).authorised d ≠ some token := by
  have h0 : ∀ t, capability.held init t = none := fun _ => rfl
  obtain ⟨grant, hheld, hpermits, hgone⟩ := permits_of_authorised h
  refine ⟨?_, fun later d hd => ?_⟩
  · obtain ⟨before, m, between, rfl, hmint⟩ := capability.exists_mints_of_held h0 hheld
    exact ⟨before, m, between, grant, rfl, hmint, grantFor_of_mints hmint, hpermits⟩
  · obtain ⟨grant', hheld', -, -⟩ := permits_of_authorised hd
    have hnone : (Machine.run step init (pre ++ c :: later)).store.grants token = none :=
      capability.held_run_of_spent h0 hheld hgone later
    rw [hheld'] at hnone
    exact absurd hnone (by simp)

/-- Alice's body at an order: alive, hers, free will on. -/
def aliceBody (task : Task) (taskSequence : ℕ) : Body where
  data :=
    { goblinNPC := true, goblinOwned := true, goblinID := Bytes.lit "goblin.primary.alice"
      goblinOwner := Bytes.lit "alice", goblinGeneration := 1, goblinTask := task
      goblinTaskPayload := .table [], goblinTaskSequence := taskSequence
      goblinAutonomous := false, goblinFreewill := false, goblinFreewillEnabled := true
      goblinBase := none }
  present := true

/-- Alice, no commander. -/
def alice : Player := ⟨Bytes.lit "alice", [], false⟩

/-- The clock at `now`, with Alice online. -/
def aliceOnline (now : ℕ) : Env := ⟨now, 7, Config.default, [alice]⟩

/-- A free-will job for Alice's companion under the token. -/
def freewillFarm (token : Bytes) : LuaValue :=
  .ofFields [("action", .str (Bytes.lit "FARM")), ("owner", .str (Bytes.lit "alice")),
    ("npc_id", .str (Bytes.lit "goblin.primary.alice")), ("freewill", .bool true),
    ("authority_token", .str token)]

/-- The calls before the farm job: a companion grant is minted while the
body follows, and the owner then gives an order, which bumps the body's
task sequence. -/
def companionThenOrder : List Call :=
  [.body (Bytes.lit "goblin.primary.alice") (some (aliceBody .follow 3)),
    .issueCompanion (aliceOnline 1000) (Bytes.lit "goblin.primary.alice"),
    .body (Bytes.lit "goblin.primary.alice") (some (aliceBody .wait 4))]

theorem grants_oneUse_farm :
    (Machine.run step init companionThenOrder).authorised
        (.consume (aliceOnline 2000) (freewillFarm (tokenText "companion" 1000 1 7))) =
      some (tokenText "companion" 1000 1 7) ∧
    ∀ later d, (Machine.run step init (companionThenOrder ++
        .consume (aliceOnline 2000) (freewillFarm (tokenText "companion" 1000 1 7)) ::
          later)).authorised d ≠ some (tokenText "companion" 1000 1 7) :=
  have h : (Machine.run step init companionThenOrder).authorised
      (.consume (aliceOnline 2000) (freewillFarm (tokenText "companion" 1000 1 7))) =
        some (tokenText "companion" 1000 1 7) := by decide
  ⟨h, (grants_oneUse _ _ _ h).2⟩

/-- **A companion grant does not bind the order.** The law that a token is
good only while its body's generation and task sequence are those it was
minted for fails: the farm job passes after the owner's order. -/
theorem companion_grant_outlives_order :
    ¬ ∀ (before between : List Call) (env : Env) (npcId token : Bytes) (grant : Grant) (c : Call),
      capability.Mints (Machine.run step init before) (.issueCompanion env npcId) token grant →
      (Machine.run step init (before ++ .issueCompanion env npcId :: between)).authorised c =
        some token →
      ∃ b b', (Machine.run step init before).bodies npcId = some b ∧
        (Machine.run step init (before ++ .issueCompanion env npcId :: between)).bodies npcId =
          some b' ∧
        b'.data.goblinGeneration = b.data.goblinGeneration ∧
        b'.data.goblinTaskSequence = b.data.goblinTaskSequence := by
  intro h
  obtain ⟨b, b', hb, hb', -, hseq⟩ := h
    [.body (Bytes.lit "goblin.primary.alice") (some (aliceBody .follow 3))]
    [.body (Bytes.lit "goblin.primary.alice") (some (aliceBody .wait 4))]
    (aliceOnline 1000) (Bytes.lit "goblin.primary.alice") (tokenText "companion" 1000 1 7)
    (.companion (Bytes.lit "alice") (Bytes.lit "goblin.primary.alice") (1000 + companionTtlMs))
    (.consume (aliceOnline 2000) (freewillFarm (tokenText "companion" 1000 1 7)))
    (by constructor <;> decide) (by decide)
  have hbefore : b = aliceBody .follow 3 := Option.some.inj (hb.symm.trans (by rfl))
  have hafter : b' = aliceBody .wait 4 := Option.some.inj (hb'.symm.trans (by rfl))
  rw [hbefore, hafter] at hseq
  exact absurd hseq (by decide)

end World

end Authority

end GoblinZomboid
