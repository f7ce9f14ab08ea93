import GoblinZomboid.Agent.Validator
import GoblinZomboid.Lib.PyStr
import GoblinZomboid.Lib.Run
import Mathlib.Data.List.AList
import Mathlib.Data.List.Count
import Mathlib.Data.List.Sort
import Mathlib.Order.Lattice
/-!
# `entities.py`: squads and the guards of the base

A squad is chosen from the able entities: its leader first, then those asked
for. A guard may go while enough are left, but the guards of other squads are
counted as if they were at the base, and who leads is not counted at all.
-/

namespace GoblinZomboid

namespace Squads

/-! ## The registry -/

/-- `valid_entity_id`: the id, if it is one. -/
def validEntityId : PyData → Option PyStr
  | .str t => if (PyStr.encode t).any Validator.isEntityId then some t else none
  | _ => none

/-- `ManagedEntity`. -/
structure ManagedEntity where
  entityId : PyStr
  role : PyStr
  alive : Bool
  active : Bool
  incapacitated : Bool
  criticalWorker : Bool
  deriving DecidableEq

/-- Alive, active and not incapacitated. -/
def ManagedEntity.able (e : ManagedEntity) : Bool := e.alive && e.active && !e.incapacitated

def ManagedEntity.isGuard (e : ManagedEntity) : Bool := e.role == PyStr.lit "guard"

/-- `EntityRegistry`: each entity under its id, in the order of registration. -/
structure EntityRegistry where
  npcs : List ManagedEntity
  players : List PyStr
  nodup : (npcs.map (·.entityId)).Nodup

namespace EntityRegistry

variable (r : EntityRegistry)

/-- `npcs.get(entity_id)`. -/
def npc (id : PyStr) : Option ManagedEntity := r.npcs.find? fun e => e.entityId == id

def knownNpc (id : PyStr) : Bool := (r.npc id).isSome

def knownPlayer (id : PyStr) : Bool := r.players.contains id

/-- The able guards. -/
def guards : List ManagedEntity := r.npcs.filter fun e => e.isGuard && e.able

/-- The entity of this id is a guard. -/
def guardId (id : PyStr) : Bool := (r.npc id).any (·.isGuard)

/-- `sorted(npcs)`. -/
def sortedIds : List PyStr :=
  (r.npcs.map (·.entityId)).insertionSort fun a b =>
    (b.map PyStr.ord).lex (a.map PyStr.ord) (fun x y => decide (x < y)) = false

end EntityRegistry

/-! ## Choosing the members -/

/-- `requested`: a count, the ids themselves, or neither. -/
inductive Requested
  | count (n : ℤ)
  | ids (values : List PyData)
  | neither

/-- `_guard_can_leave`. -/
def guardCanLeave (r : EntityRegistry) (minimum : ℕ) (selected : List PyStr) (candidate : PyStr) :
    Bool :=
  let leaving := selected.countP r.guardId + if r.guardId candidate then 1 else 0
  decide ((minimum : ℤ) ≤ (r.guards.length : ℤ) - leaving)

/-- Someone who may come along: known, able and no critical worker. -/
def fit (r : EntityRegistry) (id : PyStr) : Bool :=
  (r.npc id).any fun e => e.able && !e.criticalWorker

/-- The loop of `choose_members` over the requested ids. -/
def gather (r : EntityRegistry) (minimum : ℕ) (limit : Option ℤ) (maxSize : ℤ) :
    List PyStr → ℕ → List PyData → List PyStr
  | candidates, _, [] => candidates
  | candidates, extras, v :: rest =>
    match validEntityId v with
    | none => gather r minimum limit maxSize candidates extras rest
    | some id =>
      if candidates.contains id || !fit r id
          || (r.guardId id && !guardCanLeave r minimum candidates id) then
        gather r minimum limit maxSize candidates extras rest
      else if maxSize ≤ (candidates ++ [id]).length || limit.any fun n : ℤ => n ≤ extras + 1 then
        candidates ++ [id]
      else gather r minimum limit maxSize (candidates ++ [id]) (extras + 1) rest

def goblin : PyStr := PyStr.lit "goblin.primary"

/-- Who goes first: the goblin for a player, else the leader. -/
def first (r : EntityRegistry) (leader : PyStr) : Except String PyStr :=
  if r.knownPlayer leader then
    if (r.npc goblin).any (·.able) then .ok goblin
    else .error "Goblin is unavailable for the expedition"
  else if r.knownNpc leader then
    if (r.npc leader).any (·.able) then .ok leader else .error "squad leader is unavailable"
  else .error "unknown squad leader"

/-- The ids gone through, and how many may be taken of them. -/
def requestedIds (r : EntityRegistry) (maxSize : ℤ) :
    Requested → Except String (List PyData × Option ℤ)
  | .count n =>
    if 1 ≤ n ∧ n ≤ maxSize - 1 then .ok (r.sortedIds.map .str, some n)
    else .error "requested member count exceeds squad capacity"
  | .ids values => .ok (values, none)
  | .neither => .error "requested members must be ids or a bounded count"

/-- `choose_members`. -/
def chooseMembers (r : EntityRegistry) (minimum : ℕ) (requested : Requested) (leader : PyData)
    (maxSize : ℤ) : Except String (List PyStr) :=
  match validEntityId leader with
  | none => .error "invalid squad leader"
  | some leader =>
    if maxSize < 1 ∨ 16 < maxSize then .error "invalid squad size"
    else do
      let head ← first r leader
      let (ids, limit) ← requestedIds r maxSize requested
      return gather r minimum limit maxSize [head] 0 ids

/-! ## The manager -/

/-- `Squad`. -/
structure Squad where
  squadId : PyStr
  leader : PyStr
  members : List PyStr
  formation : PyStr
  leaderPlayer : Option PyStr
  goblinMember : Option PyStr
  npcMembers : List PyStr
  mission : PyStr
  combatPolicy : PyStr
  lootPolicy : PyStr
  homeBase : PyStr
  createdAt : ℤ

/-- `squads`: the squads by their ids. -/
abbrev SquadTable := AList fun _ : PyStr => Squad

/-- What `form` is given. -/
structure Order where
  squadId : PyData
  leader : PyData
  requested : Requested
  formation : PyStr
  maxSize : ℤ
  mission : PyData
  combatPolicy : PyData
  lootPolicy : PyData
  createdAt : ℤ

def formations : List String := ["line", "wedge", "column", "ring", "loose"]

/-- A text cut to its length, or another where it is no text. -/
def clip (v : PyData) (length : ℕ) (default : String) : PyStr :=
  match v with
  | .str t => t.take length
  | _ => PyStr.lit default

variable (u : Unicode) (r : EntityRegistry) (minimum : ℕ)

/-- `form`. -/
def form (squads : SquadTable) (o : Order) : Except String (Squad × SquadTable) :=
  match validEntityId o.squadId with
  | none => .error "invalid squad id"
  | some squadId =>
    let formation := PyStr.casefold u o.formation
    if formations.all fun name => PyStr.lit name ≠ formation then .error "unsupported formation"
    else do
      let members ← chooseMembers r minimum o.requested o.leader o.maxSize
      let leader := (validEntityId o.leader).getD []
      let goblinMember := if members.contains goblin then some goblin else none
      let squad : Squad :=
        { squadId := squadId
          leader := leader
          members := members
          formation := formation
          leaderPlayer := if r.knownPlayer leader then some leader else none
          goblinMember := goblinMember
          npcMembers := members.filter fun member => some member ≠ goblinMember
          mission := clip o.mission 96 "general expedition"
          combatPolicy := clip o.combatPolicy 32 "defensive"
          lootPolicy := clip o.lootPolicy 32 "useful"
          homeBase := PyStr.lit "base.primary"
          createdAt := o.createdAt }
      return (squad, squads.insert squadId squad)

/-- `dismiss`. -/
def dismiss (squads : SquadTable) (squadId : PyStr) : Bool × SquadTable :=
  ((squads.lookup squadId).isSome, squads.erase squadId)

/-- A call of the manager's. -/
inductive Call
  | form (o : Order)
  | dismiss (squadId : PyStr)

/-- One call; a form that raises leaves the squads as they were. -/
def step (squads : SquadTable) : Call → SquadTable
  | .form o =>
    match form u r minimum squads o with
    | .ok (_, squads) => squads
    | .error _ => squads
  | .dismiss squadId => (dismiss squads squadId).2

/-! ## The guards outside -/

/-- Someone is in a squad. -/
def bound (squads : SquadTable) (id : PyStr) : Bool :=
  squads.entries.any fun entry => entry.2.members.contains id

/-- The able guards outside every squad. -/
def outside (squads : SquadTable) : ℕ := r.guards.countP fun e => !bound squads e.entityId

/-! ## Who is sent -/

/-- The requested ids that may be taken, each once, but for those seen. -/
def eligible : List PyStr → List PyData → List PyStr
  | _, [] => []
  | seen, v :: rest =>
    match validEntityId v with
    | none => eligible seen rest
    | some id =>
      if seen.contains id || !fit r id then eligible seen rest
      else id :: eligible (id :: seen) rest

/-- A list without its guards past the first few. -/
def spare (guard : PyStr → Bool) : ℕ → List PyStr → List PyStr
  | _, [] => []
  | n, id :: rest =>
    if guard id then
      match n with
      | 0 => spare guard 0 rest
      | n + 1 => id :: spare guard n rest
    else id :: spare guard n rest

/-- How many are taken at most after the first. -/
def room (maxSize : ℤ) : Requested → ℕ
  | .count n => n.toNat
  | _ => max 1 (maxSize - 1).toNat

/-- Whom a call sends: the first, and of those requested as many as there is
room for, the guards among them within the quota the whole registry allows. -/
def sent (head : PyStr) (requested : Requested) (maxSize : ℤ) : List PyStr :=
  let values := match requested with
    | .count _ => r.sortedIds.map .str
    | .ids values => values
    | .neither => []
  let quota := r.guards.length - minimum - if r.guardId head then 1 else 0
  head :: (spare r.guardId quota (eligible r [head] values)).take (room maxSize requested)

variable {u r minimum}

/-- Where the loop stops: when it has taken this many more. -/
structure Stops (limit : Option ℤ) (maxSize : ℤ) (size extras more : ℕ) : Prop where
  pos : 1 ≤ more
  stop_iff : ∀ k, 1 ≤ k → k ≤ more →
    ((maxSize ≤ (size + k : ℕ) ∨ ∃ n ∈ limit, n ≤ (extras : ℤ) + k) ↔ k = more)

theorem Stops.next {limit : Option ℤ} {maxSize : ℤ} {size extras more : ℕ}
    (h : Stops limit maxSize size extras (more + 1)) (hmore : more ≠ 0) :
    Stops limit maxSize (size + 1) (extras + 1) more := by
  refine ⟨Nat.one_le_iff_ne_zero.2 hmore, fun k hk hle => ?_⟩
  have hiff := h.stop_iff (k + 1) (by omega) (by omega)
  have hsize : size + 1 + k = size + (k + 1) := by omega
  have hextras : ((extras + 1 : ℕ) : ℤ) + k = (extras : ℤ) + (k + 1 : ℕ) := by
    push_cast
    omega
  rw [hsize, hextras, hiff]
  omega

theorem spare_cons_other {guard : PyStr → Bool} {n : ℕ} {id : PyStr} {rest : List PyStr}
    (h : ¬ guard id = true) : spare guard n (id :: rest) = id :: spare guard n rest := by
  simp [spare, h]

theorem spare_zero_cons {guard : PyStr → Bool} {id : PyStr} {rest : List PyStr}
    (h : guard id = true) : spare guard 0 (id :: rest) = spare guard 0 rest := by
  simp [spare, h]

theorem spare_succ_cons {guard : PyStr → Bool} {n : ℕ} {id : PyStr} {rest : List PyStr}
    (h : guard id = true) : spare guard (n + 1) (id :: rest) = id :: spare guard n rest := by
  simp [spare, h]

theorem guardCanLeave_iff {selected : List PyStr} {id : PyStr} (hguard : r.guardId id = true) :
    guardCanLeave r minimum selected id = true ↔
      r.guards.length - minimum - selected.countP r.guardId ≠ 0 := by
  simp only [guardCanLeave, hguard, if_true, decide_eq_true_eq]
  push_cast
  omega

/-- **What the loop takes.** -/
theorem gather_eq {limit : Option ℤ} {maxSize : ℤ} (values : List PyData)
    (candidates seen : List PyStr) {extras more : ℕ}
    (hstops : Stops limit maxSize candidates.length extras more)
    (hseen : ∀ id ∈ candidates, id ∈ seen)
    (hleft : ∀ id ∈ seen, id ∈ candidates ∨
      r.guardId id = true ∧ r.guards.length - minimum - candidates.countP r.guardId = 0) :
    gather r minimum limit maxSize candidates extras values =
      candidates ++ (spare r.guardId (r.guards.length - minimum - candidates.countP r.guardId)
        (eligible r seen values)).take more := by
  induction values generalizing candidates seen extras more with
  | nil => simp [gather, eligible, spare]
  | cons v rest ih =>
    rw [gather, eligible]
    cases hv : validEntityId v with
    | none => exact ih candidates seen hstops hseen hleft
    | some id =>
      dsimp only
      by_cases hcand : id ∈ candidates
      · -- Taken before.
        rw [if_pos (by simp [hcand]), if_pos (by simp [hseen id hcand])]
        exact ih candidates seen hstops hseen hleft
      by_cases hfit : fit r id = true
      swap
      · rw [if_pos (by simp [hfit]), if_pos (by simp [hfit])]
        exact ih candidates seen hstops hseen hleft
      by_cases hrefused : r.guardId id = true ∧
          r.guards.length - minimum - candidates.countP r.guardId = 0
      · -- A guard past the quota, refused before or now.
        obtain ⟨hguard, hquota⟩ := hrefused
        have hstay : guardCanLeave r minimum candidates id = false := by
          rw [Bool.eq_false_iff, Ne, guardCanLeave_iff hguard]
          exact fun h => h hquota
        rw [if_pos (by simp [hguard, hstay])]
        by_cases hid : id ∈ seen
        · rw [if_pos (by simp [hid])]
          exact ih candidates seen hstops hseen hleft
        · rw [if_neg (by simp [hid, hfit]), hquota, spare_zero_cons hguard]
          have hrest := ih candidates (id :: seen) hstops
            (fun id' h => List.mem_cons_of_mem _ (hseen id' h)) (fun id' h => by
              rcases List.mem_cons.1 h with rfl | h
              · exact .inr ⟨hguard, hquota⟩
              · exact hleft id' h)
          rw [hquota] at hrest
          exact hrest
      · -- One more is taken.
        have hid : id ∉ seen := by
          intro hid
          rcases hleft id hid with h | h
          · exact hcand h
          · exact hrefused h
        have htake : ¬ (candidates.contains id || !fit r id ||
            (r.guardId id && !guardCanLeave r minimum candidates id)) = true := by
          have hleave : r.guardId id = true → guardCanLeave r minimum candidates id = true :=
            fun hguard => (guardCanLeave_iff hguard).2 fun h => hrefused ⟨hguard, h⟩
          simpa [hcand, hfit] using hleave
        have hspare : spare r.guardId (r.guards.length - minimum - candidates.countP r.guardId)
            (id :: eligible r (id :: seen) rest) =
              id :: spare r.guardId
                (r.guards.length - minimum - (candidates ++ [id]).countP r.guardId)
                (eligible r (id :: seen) rest) := by
          rw [List.countP_append, List.countP_singleton]
          by_cases hguard : r.guardId id = true
          · obtain ⟨n, hn⟩ := Nat.exists_eq_succ_of_ne_zero fun h => hrefused ⟨hguard, h⟩
            rw [if_pos hguard, ← Nat.sub_sub, hn, spare_succ_cons hguard]
            rfl
          · rw [spare_cons_other hguard, if_neg hguard, Nat.add_zero]
        have hnew : ¬ (seen.contains id || !fit r id) = true := by simp [hid, hfit]
        rw [if_neg htake, if_neg hnew, hspare]
        obtain ⟨more, rfl⟩ := Nat.exists_eq_add_of_le' hstops.pos
        rw [List.take_succ_cons]
        have hstop := hstops.stop_iff 1 le_rfl (by omega)
        by_cases hmore : more = 0
        · subst hmore
          rw [if_pos, List.take_zero]
          simpa [Option.any_eq_true] using hstop.2 rfl
        · rw [if_neg]
          swap
          · intro h
            have := hstop.1 (by simpa [Option.any_eq_true] using h)
            omega
          have hstops' : Stops limit maxSize (candidates ++ [id]).length (extras + 1) more := by
            rw [List.length_append]
            exact hstops.next hmore
          rw [ih (candidates ++ [id]) (id :: seen) hstops', List.append_assoc, List.singleton_append]
          · intro id' h
            rcases List.mem_append.1 h with h | h
            · exact List.mem_cons_of_mem _ (hseen id' h)
            · rw [List.mem_singleton.1 h]
              exact List.mem_cons_self
          · intro id' h
            rcases List.mem_cons.1 h with rfl | h
            · exact .inl (List.mem_append_right _ List.mem_cons_self)
            rcases hleft id' h with h | ⟨hguard, hquota⟩
            · exact .inl (List.mem_append_left _ h)
            · refine .inr ⟨hguard, Nat.eq_zero_of_le_zero (hquota ▸ ?_)⟩
              exact Nat.sub_le_sub_left (by rw [List.countP_append]; exact Nat.le_add_right _ _) _

/-- The loop that starts with the first member. -/
theorem gather_head {limit : Option ℤ} {maxSize : ℤ} (values : List PyData) {head : PyStr}
    {more : ℕ} (hstops : Stops limit maxSize 1 0 more) :
    gather r minimum limit maxSize [head] 0 values =
      head :: (spare r.guardId (r.guards.length - minimum - if r.guardId head then 1 else 0)
        (eligible r [head] values)).take more := by
  rw [gather_eq values [head] [head] hstops (fun _ h => h) (fun _ h => .inl h),
    List.countP_singleton]
  rfl

theorem stops_ids (maxSize : ℤ) : Stops none maxSize 1 0 (max 1 (maxSize - 1).toNat) := by
  refine ⟨le_max_left _ _, fun k hk hle => ?_⟩
  simp only [reduceCtorEq, false_and, exists_false, or_false, Option.mem_def]
  omega

theorem stops_count {n maxSize : ℤ} (hpos : 1 ≤ n) (hle : n ≤ maxSize - 1) :
    Stops (some n) maxSize 1 0 n.toNat := by
  refine ⟨by omega, fun k hk hle => ?_⟩
  simp only [Option.mem_def, Option.some.injEq, exists_eq_left', Nat.cast_zero, zero_add]
  omega

/-- **Whom `choose_members` takes.** -/
theorem chooseMembers_eq_ok {requested : Requested} {leader : PyData} {maxSize : ℤ}
    {members : List PyStr} (h : chooseMembers r minimum requested leader maxSize = .ok members) :
    ∃ id head, validEntityId leader = some id ∧ first r id = .ok head ∧
      members = sent r minimum head requested maxSize := by
  unfold chooseMembers at h
  cases hleader : validEntityId leader with
  | none =>
    rw [hleader] at h
    cases h
  | some id =>
    rw [hleader] at h
    dsimp only at h
    by_cases hsize : maxSize < 1 ∨ 16 < maxSize
    · rw [if_pos hsize] at h
      cases h
    rw [if_neg hsize] at h
    cases hfirst : first r id with
    | error e =>
      rw [hfirst] at h
      cases h
    | ok head =>
    rw [hfirst] at h
    refine ⟨id, head, rfl, hfirst, ?_⟩
    cases requested with
    | neither => cases h
    | ids values =>
      cases h
      exact gather_head values (stops_ids maxSize)
    | count n =>
      simp only [requestedIds] at h
      by_cases hn : 1 ≤ n ∧ n ≤ maxSize - 1
      · rw [if_pos hn] at h
        cases h
        exact gather_head _ (stops_count hn.1 hn.2)
      · rw [if_neg hn] at h
        cases h

/-! ## The guards that stay -/

variable (u r minimum)

/-- The able guards no squad but this one holds. -/
def free (squads : SquadTable) (squadId : PyStr) : List ManagedEntity :=
  r.guards.filter fun e => !bound (squads.erase squadId) e.entityId

/-- **The guards a form reaches can be spared**: of those no other squad holds
it leaves enough. -/
def Spared (squads : SquadTable) : Call → Prop
  | .dismiss _ => True
  | .form o => ∀ squadId leader head, validEntityId o.squadId = some squadId →
    validEntityId o.leader = some leader → first r leader = .ok head →
    (form u r minimum squads o).toOption.isSome →
      minimum + ((free r squads squadId).countP fun e =>
        (sent r minimum head o.requested o.maxSize).contains e.entityId) ≤
      (free r squads squadId).length

variable {u r minimum} {squads : SquadTable}

theorem bound_insert {squadId : PyStr} {squad : Squad} (id : PyStr) :
    bound (squads.insert squadId squad) id =
      (squad.members.contains id || bound (squads.erase squadId) id) := by
  unfold bound
  rw [AList.entries_insert, List.any_cons]
  rfl

/-- Who is in no squad is in none of fewer. -/
theorem bound_erase_of_not {squadId id : PyStr} (h : bound squads id = false) :
    bound (squads.erase squadId) id = false := by
  rw [bound, List.any_eq_false] at h ⊢
  exact fun entry hentry => h entry (List.kerase_sublist _ _ |>.subset hentry)

theorem outside_le_erase (squadId : PyStr) : outside r squads ≤ outside r (squads.erase squadId) := by
  refine List.countP_mono_left fun e _ h => ?_
  rw [Bool.not_eq_true'] at h ⊢
  exact bound_erase_of_not h

/-- The free guards are those the new squad takes and those left outside. -/
theorem outside_insert (squadId : PyStr) (squad : Squad) :
    (free r squads squadId).length =
      ((free r squads squadId).countP fun e => squad.members.contains e.entityId) +
        outside r (squads.insert squadId squad) := by
  rw [List.length_eq_countP_add_countP fun e : ManagedEntity => squad.members.contains e.entityId]
  congr 1
  unfold free outside
  rw [List.countP_filter]
  refine List.countP_congr fun e _ => ?_
  rw [bound_insert]
  cases squad.members.contains e.entityId <;> cases bound (squads.erase squadId) e.entityId <;> rfl

/-- A form that does not raise. -/
theorem form_eq_ok {o : Order} {squad : Squad} {squads' : SquadTable}
    (h : form u r minimum squads o = .ok (squad, squads')) :
    ∃ squadId leader head, validEntityId o.squadId = some squadId ∧
      validEntityId o.leader = some leader ∧ first r leader = .ok head ∧
      squad.members = sent r minimum head o.requested o.maxSize ∧
      squads' = squads.insert squadId squad := by
  unfold form at h
  cases hid : validEntityId o.squadId with
  | none =>
    rw [hid] at h
    cases h
  | some squadId =>
    rw [hid] at h
    dsimp only at h
    split at h
    · cases h
    cases hmembers : chooseMembers r minimum o.requested o.leader o.maxSize with
    | error e =>
      rw [hmembers] at h
      cases h
    | ok members =>
      rw [hmembers] at h
      obtain ⟨leader, head, hleader, hfirst, hsent⟩ := chooseMembers_eq_ok hmembers
      cases h
      exact ⟨squadId, leader, head, rfl, hleader, hfirst, hsent, rfl⟩

/-- **A call keeps enough guards outside exactly when those it reaches can be
spared.** -/
theorem guarded_step_iff (h : minimum ≤ outside r squads) (c : Call) :
    minimum ≤ outside r (step u r minimum squads c) ↔ Spared u r minimum squads c := by
  cases c with
  | dismiss squadId => exact iff_of_true (h.trans (outside_le_erase squadId)) trivial
  | form o =>
    cases hform : form u r minimum squads o with
    | error e =>
      have hstep : step u r minimum squads (.form o) = squads := by
        simp only [step, hform]
      rw [hstep]
      refine iff_of_true h fun _ _ _ _ _ _ hok => ?_
      rw [hform] at hok
      cases hok
    | ok answer =>
      obtain ⟨squad, squads'⟩ := answer
      have hstep : step u r minimum squads (.form o) = squads' := by
        simp only [step, hform]
      obtain ⟨squadId, leader, head, hid, hleader, hfirst, hmembers, rfl⟩ := form_eq_ok hform
      have hsplit : (free r squads squadId).length =
          ((free r squads squadId).countP fun e => squad.members.contains e.entityId) +
            outside r (squads.insert squadId squad) := outside_insert squadId squad
      rw [hmembers] at hsplit
      rw [hstep]
      constructor
      · intro hout squadId' leader' head' hid' hleader' hfirst' _
        rw [hid] at hid'
        cases hid'
        rw [hleader] at hleader'
        cases hleader'
        rw [hfirst] at hfirst'
        cases hfirst'
        omega
      · intro hspared
        have := hspared squadId leader head hid hleader hfirst (by rw [hform]; rfl)
        omega

/-- **Guards stay at the base exactly while those whom forms reach can be
spared.** -/
theorem guarded_run_iff (u : Unicode) (r : EntityRegistry) (minimum : ℕ) (squads : SquadTable)
    (h : minimum ≤ outside r squads) (calls : List Call) :
    (∀ calls', calls' <+: calls →
      minimum ≤ outside r (Machine.run (step u r minimum) squads calls')) ↔
      Machine.Meets (step u r minimum) (Spared u r minimum) squads calls := by
  rw [Machine.forall_prefix_iff (P := fun squads => minimum ≤ outside r squads), and_iff_right h]
  have hiff : ∀ squads c, minimum ≤ outside r squads →
      (minimum ≤ outside r (step u r minimum squads c) ↔ Spared u r minimum squads c) :=
    fun _ c h => guarded_step_iff h c
  exact Machine.meets_congr hiff (fun _ _ _ h => h) h

/-! ## When the check is enough -/

theorem countP_spare_le (guard : PyStr → Bool) (n : ℕ) (ids : List PyStr) :
    (spare guard n ids).countP guard ≤ n := by
  induction ids generalizing n with
  | nil => exact Nat.zero_le _
  | cons id rest ih =>
    by_cases hguard : guard id = true
    · cases n with
      | zero =>
        rw [spare_zero_cons hguard]
        exact ih 0
      | succ n =>
        rw [spare_succ_cons hguard, List.countP_cons_of_pos hguard]
        exact Nat.succ_le_succ (ih n)
    · rw [spare_cons_other hguard, List.countP_cons_of_neg hguard]
      exact ih n

/-- A guard of the registry is one under its id. -/
theorem guardId_of_mem {e : ManagedEntity} (h : e ∈ r.guards) : r.guardId e.entityId = true := by
  obtain ⟨hmem, hguard⟩ := List.mem_filter.1 h
  have hnpc : r.npc e.entityId = some e := by
    unfold EntityRegistry.npc
    refine List.find?_eq_some_iff_append.2 ⟨beq_self_eq_true _, ?_⟩
    obtain ⟨front, rest, hsplit⟩ := List.append_of_mem hmem
    refine ⟨front, rest, hsplit, fun e' he' => ?_⟩
    have hnodup := r.nodup
    rw [hsplit, List.map_append, List.nodup_append] at hnodup
    have hne := hnodup.2.2 e'.entityId (List.mem_map_of_mem he') e.entityId
      (List.mem_map_of_mem List.mem_cons_self)
    simpa using hne
  unfold EntityRegistry.guardId
  rw [hnpc, Option.any_some]
  exact (Bool.and_eq_true_iff.1 hguard).1

/-- **Alone the check is enough.** Where no other squad holds an able guard, a
form keeps enough of them if its first member is none, or one can go. -/
theorem spared_of_unbound {squads : SquadTable} {o : Order} (hmin : minimum ≤ r.guards.length)
    (hfree : ∀ squadId, validEntityId o.squadId = some squadId →
      ∀ e ∈ r.guards, bound (squads.erase squadId) e.entityId = false)
    (hfirst : ∀ leader head, validEntityId o.leader = some leader → first r leader = .ok head →
      r.guardId head = true → minimum < r.guards.length) :
    Spared u r minimum squads (.form o) := by
  intro squadId leader head hid hleader hhead _
  have hall : free r squads squadId = r.guards :=
    List.filter_eq_self.2 fun e he => by rw [hfree squadId hid e he]; rfl
  rw [hall]
  -- As many guards are reached as there are guard ids among those sent.
  have hle : (r.guards.countP fun e =>
      (sent r minimum head o.requested o.maxSize).contains e.entityId) ≤
        (sent r minimum head o.requested o.maxSize).countP r.guardId := by
    rw [List.countP_eq_length_filter, List.countP_eq_length_filter,
      ← List.length_map fun e : ManagedEntity => e.entityId]
    refine (List.subperm_of_subset ?_ ?_).length_le
    · have hsub : (r.guards.filter fun e =>
          (sent r minimum head o.requested o.maxSize).contains e.entityId).Sublist r.npcs :=
        List.filter_sublist.trans List.filter_sublist
      exact r.nodup.sublist (hsub.map _)
    · intro id hmem
      obtain ⟨e, he, rfl⟩ := List.mem_map.1 hmem
      obtain ⟨hguard, hsent⟩ := List.mem_filter.1 he
      exact List.mem_filter.2 ⟨List.contains_iff_mem.1 hsent, guardId_of_mem hguard⟩
  have hsent : (sent r minimum head o.requested o.maxSize).countP r.guardId ≤
      (r.guards.length - minimum - if r.guardId head then 1 else 0) +
        if r.guardId head then 1 else 0 := by
    unfold sent
    rw [List.countP_cons]
    exact Nat.add_le_add_right
      (((List.take_sublist _ _).countP_le).trans (countP_spare_le _ _ _)) _
  have hhead' : r.guardId head = true → minimum < r.guards.length :=
    hfirst leader head hleader hhead
  split at hsent
  · have := hhead' ‹_›
    omega
  · omega

/-! ## Two squads -/

/-- Two scouts and two guards. -/
def pairs : EntityRegistry where
  npcs :=
    [⟨[.char 'a'], PyStr.lit "scout", true, true, false, false⟩,
      ⟨[.char 'b'], PyStr.lit "scout", true, true, false, false⟩,
      ⟨[.char 'g'], PyStr.lit "guard", true, true, false, false⟩,
      ⟨[.char 'h'], PyStr.lit "guard", true, true, false, false⟩]
  players := []
  nodup := by decide

/-- A squad of a leader and one other, under the leader's id. -/
def pair (leader other : Char) : Order where
  squadId := .str [.char leader]
  leader := .str [.char leader]
  requested := .ids [.str [.char other]]
  formation := PyStr.lit "loose"
  maxSize := 8
  mission := .none
  combatPolicy := .none
  lootPolicy := .none
  createdAt := 0

/-- Each of two squads takes one of the two guards, and none is left. -/
theorem not_guarded_pairs : ¬ (1 ≤ outside pairs ∅ → ∀ calls', calls' <+:
      [.form (pair 'a' 'g'), .form (pair 'b' 'h')] →
    1 ≤ outside pairs (Machine.run (step .ascii pairs 1) ∅ calls')) := by
  intro h
  have hnone : ¬ 1 ≤ outside pairs (Machine.run (step .ascii pairs 1) ∅
      [.form (pair 'a' 'g'), .form (pair 'b' 'h')]) := by decide
  exact hnone (h (by decide) _ List.prefix_rfl)

/-- One squad takes one guard, and the other stays. -/
theorem guarded_pair :
    (∀ calls', calls' <+: [.form (pair 'a' 'g')] →
      1 ≤ outside pairs (Machine.run (step .ascii pairs 1) ∅ calls')) ↔
      Machine.Meets (step .ascii pairs 1) (Spared .ascii pairs 1) ∅ [.form (pair 'a' 'g')] :=
  guarded_run_iff .ascii pairs 1 ∅ (by decide) _

end Squads

end GoblinZomboid
