import GoblinZomboid.Server.FoodCycle
import GoblinZomboid.Lib.LuaPattern
import Mathlib.Data.List.Nodup
import Mathlib.Data.List.Perm.Subperm
/-!
# Delivering the ready food

The food cycle notes which items it means to deliver and gives them to a
`DELIVER` job; the job picks its own cargo by storage category, up to a cap.
When the job is done the food cycle looks for every item it noted.
-/

namespace GoblinZomboid

namespace Delivery

open Goals Goals.FoodCycle

/-! ## What food is -/

/-- What the native methods of an item answer; none for a call that failed or
an answer of another type. -/
structure Readings where
  isFood : Bool
  hungerChange : Option ℚ
  poisonPower : Option ℚ
  rotten : Option Bool
  burnt : Option Bool
  spice : Option Bool
  cookable : Option Bool
  cooked : Option Bool
  dangerousUncooked : Option Bool

/-- The kinds of `Food.classify`. -/
inductive FoodKind
  | raw
  | ready
  deriving DecidableEq

/-- `Food.classify`. -/
def classify (r : Readings) : Option FoodKind :=
  if !r.isFood then none
  else if !r.hungerChange.any (· < -1 / 100) then none
  else if !r.poisonPower.any (· ≤ 0) || r.rotten != some false || r.burnt != some false ||
      r.spice != some false then none
  else
    match r.cookable, r.cooked, r.dangerousUncooked with
    | some cookable, some cooked, some dangerous =>
      if cookable && !cooked then some .raw
      else if dangerous && !cooked then none
      else some .ready
    | _, _, _ => none

/-! ## Storage categories -/

/-- `Storage.CATEGORIES`. -/
inductive Category
  | food | water | medical | tools | weapons | ammo | materials | clothing | books | electronics
  | farming | cooking | survival | vehicle | misc | inbox | overflow
  deriving DecidableEq

/-- The keys of `Storage.CATEGORIES`. -/
def categories : List (String × Category) :=
  [("FOOD", .food), ("WATER", .water), ("MEDICAL", .medical), ("TOOLS", .tools),
    ("WEAPONS", .weapons), ("AMMO", .ammo), ("MATERIALS", .materials), ("CLOTHING", .clothing),
    ("BOOKS", .books), ("ELECTRONICS", .electronics), ("FARMING", .farming), ("COOKING", .cooking),
    ("SURVIVAL", .survival), ("VEHICLE", .vehicle), ("MISC", .misc), ("INBOX", .inbox),
    ("OVERFLOW", .overflow)]

/-- `ALIASES`. -/
def aliases : List (String × String) :=
  [("FOODS", "FOOD"), ("MEDS", "MEDICAL"), ("MEDICINE", "MEDICAL"), ("TOOL", "TOOLS"),
    ("WEAPON", "WEAPONS"), ("GUNS", "WEAPONS"), ("BULLETS", "AMMO"), ("MATERIAL", "MATERIALS"),
    ("BUILDING", "MATERIALS"), ("CLOTHES", "CLOTHING"), ("BOOK", "BOOKS"),
    ("LITERATURE", "BOOKS"), ("ELECTRONIC", "ELECTRONICS"), ("GARDENING", "FARMING"),
    ("SEEDS", "FARMING"), ("KITCHEN", "COOKING"), ("CAMPING", "SURVIVAL"),
    ("MECHANICS", "VEHICLE"), ("CAR", "VEHICLE"), ("JUNK", "MISC"), ("OTHER", "MISC"),
    ("DROPBOX", "INBOX"), ("UNSORTED", "INBOX"), ("SPARE", "OVERFLOW")]

/-- `DISPLAY`. -/
def display : List (String × Category) :=
  [("Food", .food), ("Water", .water), ("WaterContainer", .water), ("FirstAid", .medical),
    ("Bandage", .medical), ("Tool", .tools), ("ToolWeapon", .tools), ("LightSource", .tools),
    ("FireSource", .tools), ("Weapon", .weapons), ("WeaponCrafted", .weapons),
    ("WeaponPart", .weapons), ("BrokenWeapon", .weapons), ("Ammo", .ammo), ("Explosives", .ammo),
    ("Material", .materials), ("MaterialWeapon", .materials), ("RecipeResource", .materials),
    ("Paint", .materials), ("Clothing", .clothing), ("Accessory", .clothing),
    ("ProtectiveGear", .clothing), ("Bag", .clothing), ("Appearance", .clothing),
    ("Literature", .books), ("SkillBook", .books), ("Cartography", .books),
    ("Electronics", .electronics), ("Communications", .electronics), ("Gardening", .farming),
    ("GardeningWeapon", .farming), ("Cooking", .cooking), ("CookingWeapon", .cooking),
    ("Camping", .survival), ("Fishing", .survival), ("FishingWeapon", .survival),
    ("Trapping", .survival), ("VehicleMaintenance", .vehicle), ("Tuning", .vehicle),
    ("Household", .misc), ("HouseholdWeapon", .misc), ("Junk", .misc), ("JunkWeapon", .misc),
    ("Memento", .misc), ("Entertainment", .misc), ("Instrument", .misc),
    ("InstrumentWeapon", .misc), ("Sports", .misc), ("SportsWeapon", .misc), ("Container", .misc),
    ("Furniture", .misc), ("AnimalPart", .misc), ("AnimalPartWeapon", .misc)]

/-- `NEVER`. -/
def never : List String :=
  ["Security", "Wound", "ZedDmg", "Hidden", "Amputation", "Prosthesis", "Surgery", "Corpse", "Bug",
    "MaleBody", "Ears", "Tail", "Eye"]

/-- `LEGACY`. -/
def legacy : List (String × Category) :=
  [("Food", .food), ("Weapon", .weapons), ("Clothing", .clothing), ("Literature", .books)]

/-- `TABLE[key]`. -/
def entry {α : Type} (table : List (String × α)) (key : Bytes) : Option α :=
  (table.find? fun e => Bytes.lit e.1 == key).map Prod.snd

/-- `Storage.normalize`. -/
def normalize (name : Bytes) : Option Category :=
  let key := Bytes.upper (LuaPattern.gsub name "[^%a]" [])
  let key := ((entry aliases key).map Bytes.lit).getD key
  entry categories key

/-- An item as the job and the food cycle read it; none for a reading that
failed. -/
structure Item where
  id : Option ℕ
  readings : Readings
  movable : Bool
  fullType : Option Bytes
  displayCategory : Option Bytes
  legacyCategory : Option Bytes

/-- `Storage.category`. -/
def category (item : Item) : Option Category :=
  let old := item.legacyCategory.bind (entry legacy)
  match item.displayCategory with
  | none => old
  | some name =>
    if name == [] then old
    else if never.any fun n => Bytes.lit n == name then none
    else (entry display name).or old

/-- What the body carries. Native ids tell items apart. -/
structure Inventory where
  items : List Item
  distinct : (items.filterMap Item.id).Nodup

/-- `Food.carried`. -/
def carried (items : List Item) (kind : FoodKind) : List ℕ :=
  items.filterMap fun item =>
    if classify item.readings = some kind && item.movable then item.id else none

/-! ## The job -/

/-- What a `DELIVER` job is asked for. -/
structure Request where
  item : Option Bytes
  selectedIds : Option (List ℕ)
  explicitOwnerOrder : Bool
  autonomous : Bool

/-- An entry of the job's ledger, as long as it is carried. -/
structure Entry where
  id : ℕ
  type : Option Bytes
  category : Category
  deriving DecidableEq

def maxItems : ℕ := 40

/-- The loop of `Deliver.prepare` over the inventory, with the room left in
the ledger. -/
def gather (pick : Item → Option Entry) : ℕ → List Item → List Entry
  | _, [] => []
  | 0, _ :: _ => []
  | n + 1, item :: items =>
    match pick item with
    | some e => e :: gather pick n items
    | none => gather pick (n + 1) items

/-- `Deliver.prepare`: the ledger of the job. `here` says that the owner is
online and the base house loaded. -/
def prepare (here : Bool) (request : Request) (items : List Item) : Option (List Entry) :=
  if !request.explicitOwnerOrder || request.autonomous || !here then none
  else
    let filterType := request.item.filter fun name => LuaPattern.contains name (Bytes.lit ".")
    let filterCategory := if filterType.isNone then request.item.bind normalize else none
    if request.item.isSome && filterType.isNone && filterCategory.isNone then none
    else
      let pick (item : Item) : Option Entry :=
        item.id.bind fun id =>
          if item.movable && request.selectedIds.all (fun ids => List.elem id ids) &&
              filterType.all (fun name => item.fullType == some name) &&
              filterCategory.all (fun c => category item == some c) then
            some ⟨id, item.fullType, (category item).getD .misc⟩
          else none
      let ledger := gather pick maxItems items
      if ledger.isEmpty then none else some ledger

/-- What `Food.next` asks for. -/
def foodRequest (ready : List ℕ) : Request := ⟨some (Bytes.lit "FOOD"), some ready, true, false⟩

/-! ## The storage -/

/-- A container that an assignment leads to; none where it cannot be read. -/
structure Target where
  category : Category
  contents : Option (List Item)

/-- `destination`. -/
def destination (target : Target) : Bool :=
  target.category = .food || target.category = .overflow || target.category = .inbox

/-- What `Food.scan` reads of the base: the assignments that could be
resolved and how many could not, or none where there is no registry. -/
structure Base where
  set : Bool
  loaded : Bool
  assignments : Option (List Target × ℕ)
  target : ℕ

/-- The ids of the ready items, each at its first sight. -/
def readyIds : List Item → List ℕ → List ℕ
  | [], _ => []
  | item :: items, seen =>
    match classify item.readings, item.id with
    | some kind, some id =>
      if id ∈ seen then readyIds items seen
      else if kind = .ready then id :: readyIds items (id :: seen)
      else readyIds items (id :: seen)
    | _, _ => readyIds items seen

/-- The items of the storage that takes food, where it can be read. -/
def stored (base : Base) : Option (List Item) :=
  base.assignments.bind fun (live, failures) =>
    if 0 < failures then none
    else ((live.filter destination).mapM Target.contents).map List.flatten

/-- `Food.scan`. -/
def scan (base : Base) : Scan :=
  if !base.set then .unknown (Bytes.lit "NO_BASE")
  else if !base.loaded then .unknown (Bytes.lit "TARGET_UNLOADED")
  else
    match stored base with
    | none => .unknown (Bytes.lit "TARGET_UNLOADED")
    | some items =>
      if base.assignments.all fun a => (a.1.filter destination).isEmpty then .unknown noFoodStorage
      else .known (base.target - (readyIds items []).length) (readyIds items [])

/-! ## The cargo -/

theorem gather_eq (pick : Item → Option Entry) (n : ℕ) (items : List Item) :
    gather pick n items = (items.filterMap pick).take n := by
  induction items generalizing n with
  | nil => simp [gather]
  | cons item items ih =>
    cases n with
    | zero => simp [gather]
    | succ n =>
      unfold gather
      cases hpick : pick item with
      | none =>
        rw [List.filterMap_cons_none hpick]
        exact ih (n + 1)
      | some e =>
        rw [List.filterMap_cons_some hpick, List.take_succ_cons]
        exact congrArg (e :: ·) (ih n)

/-- What the food cycle notes for a delivery: what is ready and may be moved. -/
def Item.isReady (item : Item) : Bool := classify item.readings = some .ready && item.movable

theorem carried_ready (items : List Item) :
    carried items .ready = (items.filter Item.isReady).filterMap Item.id := by
  unfold carried
  rw [List.filterMap_filter]
  rfl

/-- Items with the same id are the same item. -/
theorem Inventory.ext_id {inventory : Inventory} {a b : Item} {id : ℕ}
    (ha : a ∈ inventory.items) (hb : b ∈ inventory.items) (hida : a.id = some id)
    (hidb : b.id = some id) : a = b := by
  have hdistinct := inventory.distinct
  obtain ⟨before, after, hsplit⟩ := List.append_of_mem ha
  rw [hsplit] at hb hdistinct
  rw [List.filterMap_append, List.filterMap_cons_some hida, List.nodup_middle,
    List.nodup_cons] at hdistinct
  have hother {c : Item} (hc : c ∈ before ++ after) (hidc : c.id = some id) : False :=
    hdistinct.1 (by
      rw [← List.filterMap_append]
      exact List.mem_filterMap.2 ⟨c, hc, hidc⟩)
  rcases List.mem_append.1 hb with hb | hb
  · exact (hother (List.mem_append_left _ hb) hidb).elim
  · rcases List.mem_cons.1 hb with rfl | hb
    · rfl
    · exact (hother (List.mem_append_right _ hb) hidb).elim

/-- An item is noted by its id when it is ready. -/
theorem mem_carried_ready {inventory : Inventory} {item : Item} {id : ℕ}
    (hitem : item ∈ inventory.items) (hid : item.id = some id) :
    id ∈ carried inventory.items .ready ↔ item.isReady = true := by
  rw [carried_ready, List.mem_filterMap]
  constructor
  · rintro ⟨other, hother, hid'⟩
    obtain ⟨hmem, hready⟩ := List.mem_filter.1 hother
    rwa [inventory.ext_id hitem hmem hid hid']
  · intro hready
    exact ⟨item, List.mem_filter.2 ⟨hitem, hready⟩, hid⟩

/-- **The ledger of a food delivery**: the first forty of the noted items
that storage counts as food. -/
theorem prepare_food {here : Bool} {inventory : Inventory} {ledger : List Entry}
    (h : prepare here (foodRequest (carried inventory.items .ready)) inventory.items =
      some ledger) :
    ledger.map Entry.id = ((inventory.items.filter fun item =>
      item.isReady && category item = some .food).filterMap Item.id).take maxItems := by
  have hitem : (some (Bytes.lit "FOOD")).filter
      (fun name => LuaPattern.contains name (Bytes.lit ".")) = none := by decide
  have hfood : normalize (Bytes.lit "FOOD") = some .food := by decide
  unfold prepare foodRequest at h
  dsimp only at h
  rw [hitem] at h
  split at h
  · cases h
  · simp only [Option.isNone_none, if_true, Option.bind_some, hfood, Option.isSome_some,
      Bool.true_and, Option.isNone_some, Bool.false_eq_true, if_false, Option.all_some,
      Option.all_none, Bool.and_true] at h
    split at h
    · cases h
    · obtain rfl := Option.some_inj.1 h
      rw [gather_eq, List.map_take, List.map_filterMap, List.filterMap_filter]
      refine congrArg (List.take maxItems) (List.filterMap_congr fun item hmem => ?_)
      cases hid : item.id with
      | none =>
        rw [ite_self]
        rfl
      | some id =>
        have hready := mem_carried_ready hmem hid
        have hsame : (item.movable && List.elem id (carried inventory.items .ready) &&
            category item == some .food) =
              (item.isReady && decide (category item = some .food)) := by
          rw [Bool.eq_iff_iff]
          simp only [Bool.and_eq_true, List.elem_eq_mem, decide_eq_true_eq, beq_iff_eq, hready]
          refine and_congr_left fun _ => and_iff_right_of_imp fun h => ?_
          unfold Item.isReady at h
          rw [Bool.and_eq_true] at h
          exact h.2
        rw [Option.bind_some, hsame]
        split <;> rfl

/-- **All that was noted is in the ledger**, exactly when storage counts it as
food and there is not too much of it. -/
theorem noted_in_ledger {here : Bool} {inventory : Inventory} {ledger : List Entry}
    (h : prepare here (foodRequest (carried inventory.items .ready)) inventory.items =
      some ledger) :
    (∀ id ∈ carried inventory.items .ready, id ∈ ledger.map Entry.id) ↔
      (∀ item ∈ inventory.items, item.isReady = true → item.id.isSome = true →
        category item = some .food) ∧
      (carried inventory.items .ready).length ≤ maxItems := by
  have hnodup : (carried inventory.items .ready).Nodup := by
    rw [carried_ready]
    exact inventory.distinct.sublist (List.filter_sublist.filterMap _)
  have hfood : ((inventory.items.filter fun item =>
      item.isReady && category item = some .food).filterMap Item.id).Sublist
        (carried inventory.items .ready) := by
    rw [carried_ready]
    refine List.Sublist.filterMap _ ?_
    exact List.monotone_filter_right _ fun item hitem => (Bool.and_eq_true _ _ ▸ hitem).1
  rw [prepare_food h]
  constructor
  · intro hall
    have hsub := List.subperm_of_subset hnodup hall
    have hlen := hsub.length_le
    rw [List.length_take] at hlen
    have hfew := hfood.length_le
    have heq := hfood.eq_of_length_le (by omega)
    refine ⟨fun item hitem hready hid => ?_, by omega⟩
    obtain ⟨id, hid⟩ := Option.isSome_iff_exists.1 hid
    have hnoted := (mem_carried_ready hitem hid).2 hready
    rw [← heq] at hnoted
    obtain ⟨other, hother, hid'⟩ := List.mem_filterMap.1 hnoted
    obtain ⟨hmem, hboth⟩ := List.mem_filter.1 hother
    rw [inventory.ext_id hitem hmem hid hid']
    rw [Bool.and_eq_true, decide_eq_true_eq] at hboth
    exact hboth.2
  · rintro ⟨hcategory, hfew⟩ id hid
    have hsame : (inventory.items.filter fun item =>
        item.isReady && category item = some .food).filterMap Item.id =
          carried inventory.items .ready := by
      rw [carried_ready, List.filterMap_filter, List.filterMap_filter]
      refine List.filterMap_congr fun item hitem => ?_
      cases hready : item.isReady with
      | false => rfl
      | true =>
        cases hid : item.id with
        | none => rw [ite_self, ite_self]
        | some i =>
          rw [hcategory item hitem hready (by rw [hid]; rfl)]
          rfl
    rw [hsame, List.take_of_length_le hfew]
    exact hid

/-! ## The verdict -/

/-- What is there when the result comes in: the base, whether the inventory
can be read, and what is left in it once the ledger is delivered. -/
structure After where
  base : Base
  inventoryReads : Bool

/-- What the job leaves with the body. -/
def left (inventory : Inventory) (ledger : List Entry) : List Item :=
  inventory.items.filter fun item => !ledger.any fun e => item.id == some e.id

/-- What `Food.onResult` reads then. `Transfer.findById` is false where the
inventory can be read and no item has the id. -/
def After.larder (after : After) (inventory : Inventory) (ledger : List Entry) : Larder where
  scan := scan after.base
  ready := []
  raw := false
  absent id := after.inventoryReads && !(left inventory ledger).any fun item => item.id == some id

/-- A delivery was chosen for what is ready, and that is noted. -/
theorem next_deliver {g g' : Goal} {world : Larder} {now : ℕ}
    (h : next g world now = (g', some .deliver)) :
    world.ready ≠ [] ∧ (foodOf g').deliveryIds = world.ready := by
  unfold next at h
  cases hscan : world.scan with
  | unknown reason =>
    rw [hscan] at h
    dsimp only at h
    split at h
    · cases (Prod.mk.inj h).2
    · cases (Prod.mk.inj h).2
  | known shortage readyIds =>
    rw [hscan] at h
    dsimp only at h
    split at h
    · cases (Prod.mk.inj h).2
    · split at h
      · rename_i hready
        obtain ⟨rfl, -⟩ := Prod.mk.inj h
        refine ⟨?_, rfl⟩
        intro hnil
        rw [hnil] at hready
        cases hready
      · split at h
        · cases (Prod.mk.inj h).2
        · split at h
          · cases (Prod.mk.inj h).2
          · cases (Prod.mk.inj h).2

/-- A finished delivery is accepted when the cargo is verified. -/
theorem onResult_deliver {g : Goal} {r : JobResult} {world : Larder} {now : ℕ}
    (hsuccess : r.success = true) (hcode : r.code = Capabilities.complete) :
    (onResult g .deliver r world now).state ≠ .waiting ↔ delivered (foodOf g) world ≠ none := by
  have hno : r.code ≠ Bytes.lit "INTERRUPTED" := by
    rw [hcode]
    decide
  unfold onResult
  dsimp only
  rw [if_neg hno, if_pos (by rw [hsuccess, hcode]; simp)]
  cases delivered (foodOf g) world with
  | none => exact iff_of_false (fun h => h rfl) (fun h => h rfl)
  | some n =>
    cases n with
    | zero => exact iff_of_true nofun nofun
    | succ n => exact iff_of_true nofun nofun

/-- The first usable item of the id. -/
def firstKind (items : List Item) (id : ℕ) : Option FoodKind :=
  items.findSome? fun item => if item.id = some id then classify item.readings else none

theorem mem_readyIds {items : List Item} {seen : List ℕ} {id : ℕ} :
    id ∈ readyIds items seen ↔ id ∉ seen ∧ firstKind items id = some .ready := by
  induction items generalizing seen with
  | nil => simp [readyIds, firstKind]
  | cons item items ih =>
    unfold readyIds
    have hskip (h : item.id ≠ some id ∨ classify item.readings = none) :
        firstKind (item :: items) id = firstKind items id := by
      unfold firstKind
      rw [List.findSome?_cons]
      rcases h with h | h
      · rw [if_neg h]
      · rw [h, ite_self]
    cases hkind : classify item.readings with
    | none => rw [hskip (.inr hkind), ← ih]
    | some kind =>
      cases hid : item.id with
      | none => rw [hskip (.inl (by rw [hid]; nofun)), ← ih]
      | some i =>
        dsimp only
        rcases eq_or_ne i id with rfl | hne
        · have hfirst : firstKind (item :: items) i = some kind := by
            unfold firstKind
            rw [List.findSome?_cons, if_pos hid, hkind]
          rw [hfirst]
          split
          · rename_i hseen
            rw [ih]
            exact iff_of_false (fun h => h.1 hseen) (fun h => h.1 hseen)
          · rename_i hseen
            cases kind with
            | ready => simp [hseen]
            | raw =>
              rw [if_neg nofun, ih]
              simp
        · have hne' : item.id ≠ some id := by
            rw [hid]
            intro h
            exact hne (Option.some_inj.1 h)
          rw [hskip (.inl hne')]
          split
          · exact ih
          · split
            · rw [List.mem_cons, ih, List.mem_cons]
              simp [Ne.symm hne]
            · rw [ih, List.mem_cons]
              simp [Ne.symm hne]

/-- The storage can be read, and there is some that takes food. -/
def Base.Readable (base : Base) (items : List Item) : Prop :=
  base.set = true ∧ base.loaded = true ∧ stored base = some items ∧
    (base.assignments.all fun a => (a.1.filter destination).isEmpty) = false

theorem scan_eq_known {base : Base} {shortage : ℕ} {ids : List ℕ} :
    scan base = .known shortage ids ↔
      ∃ items, base.Readable items ∧ ids = readyIds items [] ∧
        shortage = base.target - ids.length := by
  constructor
  · intro h
    unfold scan at h
    split at h
    · cases h
    · rename_i hset
      split at h
      · cases h
      · rename_i hloaded
        split at h
        · cases h
        · rename_i items hstored
          split at h
          · cases h
          · rename_i hsome
            obtain ⟨rfl, rfl⟩ := Scan.known.inj h
            rw [Bool.not_eq_true', Bool.not_eq_false] at hset hloaded
            exact ⟨items, ⟨hset, hloaded, hstored, Bool.eq_false_iff.2 hsome⟩, rfl, rfl⟩
  · rintro ⟨items, ⟨hset, hloaded, hstored, hsome⟩, rfl, rfl⟩
    unfold scan
    rw [hset, hloaded, hstored, hsome]
    rfl

/-- When a finished food delivery is accepted: storage counts all that was
noted as food, it is not more than the job takes, and when the result comes in
storage and inventory can be read and each of the items is ready food there. -/
structure Agrees (inventory : Inventory) (after : After) : Prop where
  food : ∀ item ∈ inventory.items, item.isReady = true → item.id.isSome = true →
    category item = some .food
  few : (carried inventory.items .ready).length ≤ maxItems
  inventoryReads : after.inventoryReads = true
  storage : ∃ items, after.base.Readable items ∧
    ∀ id ∈ carried inventory.items .ready, firstKind items id = some .ready

/-- What was noted is gone from the inventory when it was in the ledger. -/
theorem absent_iff {inventory : Inventory} {ledger : List Entry} {after : After} {id : ℕ}
    (hid : id ∈ carried inventory.items .ready) :
    (after.larder inventory ledger).absent id = true ↔
      after.inventoryReads = true ∧ id ∈ ledger.map Entry.id := by
  unfold After.larder left
  dsimp only
  rw [Bool.and_eq_true, Bool.not_eq_true', Bool.eq_false_iff, Ne, List.any_eq_true]
  refine and_congr_right fun _ => ?_
  rw [carried_ready, List.mem_filterMap] at hid
  obtain ⟨item, hitem, hid⟩ := hid
  have hmem := (List.mem_filter.1 hitem).1
  constructor
  · intro hgone
    by_contra hout
    refine hgone ⟨item, List.mem_filter.2 ⟨hmem, ?_⟩, by simp [hid]⟩
    rw [Bool.not_eq_true', Bool.eq_false_iff, Ne, List.any_eq_true]
    rintro ⟨e, he, heq⟩
    rw [hid, beq_iff_eq, Option.some_inj] at heq
    exact hout (List.mem_map.2 ⟨e, he, heq.symm⟩)
  · rintro hin ⟨other, hother, heq⟩
    obtain ⟨e, he, rfl⟩ := List.mem_map.1 hin
    have hkept := (List.mem_filter.1 hother).2
    rw [Bool.not_eq_true', Bool.eq_false_iff, Ne, List.any_eq_true] at hkept
    exact hkept ⟨e, he, heq⟩

/-- **A finished food delivery is accepted, exactly when** the food cycle and
the job agree on what is to be delivered, and it can be read afterwards. -/
theorem delivery_accepted_iff {inventory : Inventory} {g g' : Goal} {world : Larder}
    {here : Bool} {ledger : List Entry} {after : After} {r : JobResult} {now now' : ℕ}
    (hready : world.ready = carried inventory.items .ready)
    (hnext : next g world now = (g', some .deliver))
    (hjob : prepare here (foodRequest world.ready) inventory.items = some ledger)
    (hsuccess : r.success = true) (hcode : r.code = Capabilities.complete) :
    (onResult g' .deliver r (after.larder inventory ledger) now').state ≠ .waiting ↔
      Agrees inventory after := by
  obtain ⟨hne, hids⟩ := next_deliver hnext
  rw [hready] at hne hids hjob
  rw [onResult_deliver hsuccess hcode]
  have hscan : (after.larder inventory ledger).scan = scan after.base := rfl
  have hledger := noted_in_ledger hjob
  unfold delivered
  rw [hscan, hids]
  constructor
  · intro hsome
    cases hknown : scan after.base with
    | unknown reason =>
      rw [hknown] at hsome
      exact absurd rfl hsome
    | known shortage ids =>
      rw [hknown] at hsome
      dsimp only at hsome
      split at hsome
      · rename_i hall
        rw [Bool.and_eq_true, List.all_eq_true] at hall
        obtain ⟨items, hreadable, rfl, -⟩ := scan_eq_known.1 hknown
        have hboth : ∀ id ∈ carried inventory.items .ready,
            firstKind items id = some .ready ∧ after.inventoryReads = true ∧
              id ∈ ledger.map Entry.id := by
          intro id hid
          have hthis := hall.2 id hid
          rw [Bool.and_eq_true, decide_eq_true_eq, mem_readyIds, absent_iff hid] at hthis
          exact ⟨hthis.1.2, hthis.2⟩
        obtain ⟨hfood, hfew⟩ := hledger.1 fun id hid => (hboth id hid).2.2
        obtain ⟨id, hid⟩ := List.exists_mem_of_ne_nil _ hne
        exact ⟨hfood, hfew, (hboth id hid).2.1, items, hreadable, fun id hid => (hboth id hid).1⟩
      · exact absurd rfl hsome
  · rintro ⟨hfood, hfew, hreads, items, hreadable, hkinds⟩
    have hknown : scan after.base = .known _ _ := scan_eq_known.2 ⟨items, hreadable, rfl, rfl⟩
    rw [hknown]
    dsimp only
    rw [if_pos]
    · exact nofun
    · rw [Bool.and_eq_true, List.all_eq_true]
      refine ⟨by simpa using hne, fun id hid => ?_⟩
      rw [Bool.and_eq_true, decide_eq_true_eq, mem_readyIds, absent_iff hid]
      exact ⟨⟨List.not_mem_nil, hkinds id hid⟩, hreads, hledger.2 ⟨hfood, hfew⟩ id hid⟩

/-- A tin that can be eaten from. -/
def tin (id : ℕ) : Item where
  id := some id
  readings := ⟨true, some (-10), some 0, some false, some false, some false, some false, some false,
    some false⟩
  movable := true
  fullType := some (Bytes.lit "Base.TinnedBeans")
  displayCategory := some (Bytes.lit "Food")
  legacyCategory := some (Bytes.lit "Food")

/-- Tins, as many as there are to be. -/
def tins (n : ℕ) : List Item := (List.range n).map tin

theorem tins_ids (n : ℕ) : (tins n).filterMap Item.id = List.range n := by
  unfold tins
  rw [List.filterMap_map]
  exact List.filterMap_some

/-- A body with nothing but tins. -/
def carrying (n : ℕ) : Inventory := ⟨tins n, by rw [tins_ids]; exact List.nodup_range⟩

/-- The food goal at its one step. -/
def hungry : Goal :=
  ⟨0, [], .restockFood, 1, .active, 1, [⟨.deliver, 0⟩], 0, 0, 0, 0, none, none⟩

/-- The world it sees: shelves that are empty, and the tins. -/
def seen (n : ℕ) : Larder := ⟨.known 4 [], carried (tins n) .ready, false, fun _ => false⟩

/-- Base storage with that many tins in it. -/
def shelved (n : ℕ) : After := ⟨⟨true, true, some ([⟨.food, some (tins n)⟩], 0), 4⟩, true⟩

/-- The iff for one tin. -/
theorem delivery_accepted_iff_tin :
    (onResult (next hungry (seen 1) 0).1 .deliver ⟨true, Capabilities.complete⟩
      ((shelved 1).larder (carrying 1) [⟨0, some (Bytes.lit "Base.TinnedBeans"), .food⟩])
        0).state ≠ .waiting ↔ Agrees (carrying 1) (shelved 1) :=
  @delivery_accepted_iff (carrying 1) hungry _ (seen 1) true _ (shelved 1) _ 0 0 rfl
    (Prod.ext rfl (by decide +kernel)) (by decide +kernel) rfl rfl

/-- **The forty-first tin.** All forty items of the ledger are stored and can
be read, and the delivery is not accepted. -/
theorem forty_first_tin :
    ∃ ledger, prepare true (foodRequest (carried (carrying 41).items .ready)) (carrying 41).items =
        some ledger ∧
      (∀ id ∈ ledger.map Entry.id, firstKind (tins 40) id = some .ready) ∧
      (shelved 40).base.Readable (tins 40) ∧ (shelved 40).inventoryReads = true ∧
      (next hungry (seen 41) 0).2 = some .deliver ∧
      (onResult (next hungry (seen 41) 0).1 .deliver ⟨true, Capabilities.complete⟩
        ((shelved 40).larder (carrying 41) ledger) 0).state = .waiting := by
  have hjob : (prepare true (foodRequest (carried (carrying 41).items .ready))
      (carrying 41).items).isSome = true := by decide +kernel
  obtain ⟨ledger, hledger⟩ := Option.isSome_iff_exists.1 hjob
  have hids : ledger.map Entry.id = List.range 40 := by
    rw [prepare_food hledger]
    decide +kernel
  refine ⟨ledger, hledger, ?_, ⟨rfl, rfl, ?_, rfl⟩, rfl, by decide +kernel, ?_⟩
  · rw [hids]
    decide +kernel
  · show some (List.flatten [tins 40]) = some (tins 40)
    rw [List.flatten_singleton]
  · by_contra haccepted
    rw [← Ne, onResult_deliver rfl rfl] at haccepted
    refine haccepted ?_
    unfold delivered
    have hgone : ((shelved 40).larder (carrying 41) ledger).absent 40 = false := by
      rw [Bool.eq_false_iff]
      intro hgone
      have hin := ((absent_iff (by decide +kernel)).1 hgone).2
      rw [hids] at hin
      revert hin
      decide
    have hnoted : 40 ∈ (foodOf (next hungry (seen 41) 0).1).deliveryIds := by decide +kernel
    cases ((shelved 40).larder (carrying 41) ledger).scan with
    | unknown reason => rfl
    | known shortage ids =>
      refine if_neg fun hall => ?_
      rw [Bool.and_eq_true, List.all_eq_true] at hall
      have hlast := hall.2 40 hnoted
      rw [hgone, Bool.and_false] at hlast
      cases hlast

end Delivery

end GoblinZomboid
