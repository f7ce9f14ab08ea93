import GoblinZomboid.Agent.Driver
import GoblinZomboid.Agent.Validator
import Mathlib.Data.List.DropRight
/-!
# Validating what was validated

The normalised data of an accepted intent is an intent object again. Each of
its fields is read as it was, but for a job that grows when its case is
folded.
-/

namespace GoblinZomboid

namespace Validator

open Protocol (Dict get)
open Controllers (Item Target isOne)
open Npc (optional get_optional_self get_optional_ne)

/-- What is stripped is stripped. -/
theorem strip_strip (t : PyText) : PyText.strip (PyText.strip t) = PyText.strip t := by
  have hstrip (t : PyText) :
      PyText.strip t = (t.dropWhile PyText.isSpace).rdropWhile PyText.isSpace := rfl
  have hleft : ((t.dropWhile PyText.isSpace).rdropWhile PyText.isSpace).dropWhile PyText.isSpace =
      (t.dropWhile PyText.isSpace).rdropWhile PyText.isSpace := by
    obtain ⟨rest, hrest⟩ := List.rdropWhile_prefix PyText.isSpace (t.dropWhile PyText.isSpace)
    cases hkept : (t.dropWhile PyText.isSpace).rdropWhile PyText.isSpace with
    | nil => rfl
    | cons c kept =>
      -- The first character is the one the blanks before were dropped up to.
      rw [hkept] at hrest
      refine List.dropWhile_cons_of_neg ?_
      have hfirst := List.head?_dropWhile_not PyText.isSpace t
      rw [← hrest] at hfirst
      simpa using hfirst
  rw [hstrip, hstrip, hleft, List.rdropWhile_idempotent]

/-- A text that was read is read as itself. -/
theorem text_again {u : Unicode} {value : PyValue} {field field' : String} {maximum : ℕ}
    {t : PyText} (h : text u value field maximum = .ok t) :
    text u (.str t) field' maximum = .ok t := by
  cases value with
  | str s =>
    unfold text at h
    dsimp only at h
    split_ifs at h with hbad hplace
    obtain rfl := Except.ok.inj h
    unfold text
    dsimp only
    rw [strip_strip, if_neg hbad, if_neg hplace]
  | _ => cases h

/-- A text of ASCII is read the same whatever the character database. -/
theorem text_ascii {u : Unicode} {t : PyText} {field : String} {maximum : ℕ}
    (h : text .ascii (.str t) field maximum = .ok t) (hascii : ∀ c ∈ t, c.toNat < 128) :
    text u (.str t) field maximum = .ok t := by
  have hplaces : ∀ s : PyText, (∀ c ∈ s, c.toNat < 128) →
      PyRegex.search u textCoordinate s = PyRegex.search .ascii textCoordinate s :=
    fun s hs => PyRegex.search_ascii u textCoordinate hs
  unfold text at h ⊢
  dsimp only at h ⊢
  split_ifs at h with hbad hplace
  have ht : PyText.strip t = t := Except.ok.inj h
  rw [ht] at hbad hplace ⊢
  rw [if_neg hbad, hplaces t hascii, if_neg hplace]

/-! ## Names that read as themselves -/

/-- A name of ASCII that the text reader leaves alone. -/
def readsSame (maximum : ℕ) (name : String) : Bool :=
  (text .ascii (.str (PyText.lit name)) "" maximum).toOption == some (PyText.lit name) &&
    (PyText.lit name).all fun c => c.toNat < 128

theorem exists_of_isOne {t : PyText} {names : List String} (h : isOne t names = true) :
    ∃ name ∈ names, t = PyText.lit name := by
  obtain ⟨name, hname, heq⟩ := List.any_eq_true.1 h
  exact ⟨name, hname, (of_decide_eq_true heq).symm⟩

theorem text_of_isOne {u : Unicode} {t : PyText} {field : String} {maximum : ℕ}
    {names : List String} (hnames : names.all (readsSame maximum) = true)
    (h : isOne t names = true) : text u (.str t) field maximum = .ok t := by
  obtain ⟨name, hname, rfl⟩ := exists_of_isOne h
  have hread := List.all_eq_true.1 hnames name hname
  unfold readsSame at hread
  rw [Bool.and_eq_true, beq_iff_eq] at hread
  obtain ⟨hsame, hascii⟩ := hread
  have hok : text .ascii (.str (PyText.lit name)) "" maximum = .ok (PyText.lit name) := by
    cases hok : text .ascii (.str (PyText.lit name)) "" maximum with
    | error e =>
      rw [hok] at hsame
      cases hsame
    | ok t =>
      rw [hok] at hsame
      exact congrArg Except.ok (Option.some_inj.1 hsame)
  exact text_again (text_ascii hok fun c hc => of_decide_eq_true (List.all_eq_true.1 hascii c hc))

/-- Names of small letters have no case to fold. -/
theorem casefold_of_isOne {u : Unicode} {t : PyText} {names : List String}
    (hnames : (names.all fun name =>
      (PyText.lit name).all fun c => c.toNat < 128 && c.toLower == c) = true)
    (h : isOne t names = true) : casefold u t = t := by
  obtain ⟨name, hname, rfl⟩ := exists_of_isOne h
  exact u.flatMap_casefold (List.all_eq_true.1 hnames name hname)

/-- Names of capitals are not changed by `upper`. -/
theorem upper_of_isOne {u : Unicode} {t : PyText} {names : List String}
    (hnames : (names.all fun name =>
      (PyText.lit name).all fun c => c.toNat < 128 && c.toUpper == c) = true)
    (h : isOne t names = true) : t.flatMap u.upper = t := by
  obtain ⟨name, hname, rfl⟩ := exists_of_isOne h
  have hcapitals := List.all_eq_true.1 hnames name hname
  have hone : ∀ c ∈ PyText.lit name, u.upper c = [c] := by
    intro c hc
    have hcapital := List.all_eq_true.1 hcapitals c hc
    rw [Bool.and_eq_true, decide_eq_true_eq, beq_iff_eq] at hcapital
    rw [u.upper_ascii c hcapital.1, hcapital.2]
  rw [List.flatMap_congr hone]
  simp

/-! ## The normalised data -/

/-- What `_target` makes. -/
def targetData (t : Target) : PyValue :=
  .dict (optional "kind" (t.kind.map .str) ++ optional "player" (t.player.map .str) ++
    optional "name" (t.name.map .str) ++ optional "label" (t.label.map .str))

/-- What `_item` makes. -/
def itemData (it : Item) (category : Option PyText) : PyValue :=
  .dict (optional "name" (it.name.map .str) ++ optional "category" (category.map .str) ++
    optional "count" (it.count.map .int))

/-- What `_candidate` makes. -/
def candidateData (t : Target) (clue : Option PyText) : PyValue :=
  .dict (optional "kind" (t.kind.map .str) ++ optional "label" (t.label.map .str) ++
    optional "clue" (clue.map .str))

def listData (items : List PyText) : PyValue := .list (items.map .str)

/-- What `_member_request` makes of `requested_members`: a number stays one. -/
def requestedData (raw : Dict) (v : Validated) : Option PyValue :=
  (get raw "requested_members").map fun
    | .int n => .int n
    | _ => listData v.intent.requestedMembers

/-- `ValidatedIntent.data`. -/
def data (raw : Dict) (v : Validated) : Dict :=
  optional "intent" (some (.str v.intent.intent)) ++ optional "mode" (some (.str v.mode)) ++
    optional "text" (v.intent.text.map .str) ++ optional "priority" (v.intent.priority.map .int) ++
    optional "abort_if" (v.abortIf.map listData) ++
    optional "target" (v.intent.target.map targetData) ++
    optional "item" (v.intent.item.map fun it => itemData it v.category) ++
    optional "candidate" (v.intent.candidate.map fun t => candidateData t v.clue) ++
    optional "loot_focus" (v.intent.lootFocus.map .str) ++
    optional "npc_id" (v.intent.npcId.map .str) ++ optional "leader" (v.intent.leader.map .str) ++
    optional "squad_id" (v.intent.squadId.map .str) ++
    optional "requested_members" (requestedData raw v) ++
    optional "members" (v.intent.members.map listData) ++
    optional "job" (v.intent.job.map .str) ++ optional "formation" (v.intent.formation.map .str) ++
    optional "zone" (v.zone.map .str) ++ optional "mission" (v.mission.map .str)

/-! ## Reading it again -/

/-- What is read from a value is read from what is made of it. -/
def Again {α : Type} (read : PyValue → Except String α) (made : α → PyValue) : Prop :=
  ∀ w a, read w = .ok a → read (made a) = .ok a

section

variable {u : Unicode}

theorem again_text (field : String) (maximum : ℕ) :
    Again (fun w => text u w field maximum) .str := fun _ _ h => text_again h

theorem again_id (field : String) : Again (fun w => id u w field) .str := by
  intro w t h
  simp only [id, Protocol.bind_eq_ok, refuse_eq_ok] at h ⊢
  obtain ⟨t', htext, -, hid, hpure⟩ := h
  obtain rfl := Except.ok.inj hpure
  exact ⟨t', text_again htext, (), hid, rfl⟩

theorem mapM_again {read : PyValue → Except String PyText} (hread : Again read .str)
    {items : List PyValue} {texts : List PyText} (h : items.mapM read = .ok texts) :
    (texts.map PyValue.str).mapM read = .ok texts := by
  induction items generalizing texts with
  | nil =>
    obtain rfl := Except.ok.inj h
    rfl
  | cons w items ih =>
    rw [List.mapM_cons] at h
    obtain ⟨t, ht, h⟩ := Protocol.bind_eq_ok.1 h
    obtain ⟨rest, hrest, hpure⟩ := Protocol.bind_eq_ok.1 h
    obtain rfl := Except.ok.inj hpure
    rw [List.map_cons, List.mapM_cons, hread w t ht, ih hrest]
    rfl

theorem again_idList (field : String) : Again (fun w => idList u w field) listData := by
  intro w ids h
  cases w with
  | list items =>
    unfold idList at h
    dsimp only at h
    split at h
    · cases h
    · rename_i hcount
      have hlen := length_mapM h
      unfold idList listData
      dsimp only
      rw [if_neg]
      · exact mapM_again (again_id _) h
      · rw [List.length_map, hlen]
        simpa [List.isEmpty_iff, ← List.length_eq_zero_iff, hlen] using hcount
  | _ => cases h

theorem again_abortIf : Again (abortIf u) listData := by
  intro w texts h
  cases w with
  | list items =>
    unfold abortIf at h
    dsimp only at h
    split at h
    · cases h
    · rename_i hcount
      have hlen := length_mapM h
      unfold abortIf listData
      dsimp only
      rw [if_neg]
      · exact mapM_again (again_text _ _) h
      · rw [List.length_map, hlen]
        simpa [List.isEmpty_iff, ← List.length_eq_zero_iff, hlen] using hcount
  | _ => cases h

theorem again_oneOf {field : String} {maximum : ℕ} {names : List String}
    (hreads : names.all (readsSame maximum) = true)
    (hsmall : (names.all fun name =>
      (PyText.lit name).all fun c => c.toNat < 128 && c.toLower == c) = true) :
    Again (fun w => oneOf u w field maximum names) .str := by
  intro w t h
  simp only [oneOf, Protocol.bind_eq_ok, refuse_eq_ok] at h ⊢
  obtain ⟨t', -, -, hone, hpure⟩ := h
  obtain rfl := Except.ok.inj hpure
  rw [Bool.not_eq_false'] at hone
  refine ⟨casefold u t', text_of_isOne hreads hone, (), ?_, ?_⟩
  · rw [casefold_of_isOne hsmall hone, hone]
    rfl
  · rw [casefold_of_isOne hsmall hone]
    rfl

theorem firstUnknown_eq_none {d : Dict} {allowed : List String}
    (h : ∀ e ∈ d, isOne e.1 allowed = true) : firstUnknown d allowed = none := by
  unfold firstUnknown
  have hnone : ((d.map Prod.fst).filter fun key => !isOne key allowed) = [] := by
    refine List.filter_eq_nil_iff.2 fun key hkey => ?_
    obtain ⟨e, he, rfl⟩ := List.mem_map.1 hkey
    rw [h e he]
    simp
  rw [hnone, List.mergeSort_nil]
  rfl

/-- The keys of optional fields are known by their names. -/
theorem known_optional {name : String} {v : Option PyValue} {allowed : List String}
    (h : isOne (PyText.lit name) allowed = true) :
    ∀ e ∈ optional name v, isOne e.1 allowed = true := by
  intro e he
  rw [Npc.mem_optional he]
  exact h

theorem known_append {d d' : Dict} {allowed : List String}
    (h : ∀ e ∈ d, isOne e.1 allowed = true) (h' : ∀ e ∈ d', isOne e.1 allowed = true) :
    ∀ e ∈ d ++ d', isOne e.1 allowed = true := by
  intro e he
  rcases List.mem_append.1 he with he | he
  · exact h e he
  · exact h' e he

theorem object_data {d : Dict} {field : String} {allowed : List String}
    (h : ∀ e ∈ d, isOne e.1 allowed = true) : object (.dict d) field allowed = .ok d := by
  unfold object
  dsimp only
  rw [firstUnknown_eq_none h]

/-- What `targetLabel` makes, by the field the label stands in. -/
theorem targetLabel_again {raw : Dict} {kind : PyText} {t : Target}
    (h : targetLabel u raw kind = .ok t) :
    t.kind = some kind ∧ targetLabel u (optional "kind" (t.kind.map .str) ++
      optional "player" (t.player.map .str) ++ optional "name" (t.name.map .str) ++
        optional "label" (t.label.map .str)) kind = .ok t := by
  have hget (t : Target) (name : String) : get (optional "kind" (t.kind.map .str) ++
      optional "player" (t.player.map .str) ++ optional "name" (t.name.map .str) ++
        optional "label" (t.label.map .str)) name =
      ((((get (optional "kind" (t.kind.map .str)) name).or
        (get (optional "player" (t.player.map .str)) name)).or
          (get (optional "name" (t.name.map .str)) name)).or
            (get (optional "label" (t.label.map .str)) name)) := by
    rw [Protocol.get_append, Protocol.get_append, Protocol.get_append]
  have hplayer (t : Target) := hget t "player"
  have hname (t : Target) := hget t "name"
  have hlabel (t : Target) := hget t "label"
  simp (disch := decide) only [get_optional_self, get_optional_ne, Option.none_or,
    Option.or_none] at hplayer hname hlabel
  unfold targetLabel at h ⊢
  dsimp only at h ⊢
  cases hkind : kind == PyText.lit "player" with
  | true =>
    rw [hkind] at h
    simp only [if_true] at h ⊢
    rw [hplayer, hlabel]
    cases hfirst : get raw "player" with
    | some w =>
      rw [hfirst] at h
      obtain ⟨l, hread, rfl⟩ := map_eq_ok.1 h
      refine ⟨rfl, ?_⟩
      dsimp only [Option.map_some]
      rw [text_again hread]
      rfl
    | none =>
      rw [hfirst] at h
      cases hsecond : get raw "label" with
      | some w =>
        rw [hsecond] at h
        obtain ⟨l, hread, rfl⟩ := map_eq_ok.1 h
        refine ⟨rfl, ?_⟩
        dsimp only [Option.map_some, Option.map_none]
        rw [text_again hread]
        rfl
      | none =>
        rw [hsecond] at h
        cases h
  | false =>
    rw [hkind] at h
    simp only [Bool.false_eq_true, if_false] at h ⊢
    rw [hname, hlabel]
    cases hfirst : get raw "name" with
    | some w =>
      rw [hfirst] at h
      obtain ⟨l, hread, rfl⟩ := map_eq_ok.1 h
      refine ⟨rfl, ?_⟩
      dsimp only [Option.map_some]
      rw [text_again hread]
      rfl
    | none =>
      rw [hfirst] at h
      cases hsecond : get raw "label" with
      | some w =>
        rw [hsecond] at h
        obtain ⟨l, hread, rfl⟩ := map_eq_ok.1 h
        refine ⟨rfl, ?_⟩
        dsimp only [Option.map_some, Option.map_none]
        rw [text_again hread]
        rfl
      | none =>
        rw [hsecond] at h
        cases h

theorem again_target : Again (target u) targetData := by
  intro w t h
  simp only [target, Protocol.bind_eq_ok, refuse_eq_ok] at h ⊢
  obtain ⟨raw, -, kind, -, -, hkind, hlabel⟩ := h
  rw [Bool.not_eq_false'] at hkind
  obtain ⟨hkind', hagain⟩ := targetLabel_again hlabel
  have hreads : targetKinds.all (readsSame 32) = true := by decide
  have hsmall : (targetKinds.all fun name =>
      (PyText.lit name).all fun c => c.toNat < 128 && c.toLower == c) = true := by decide
  refine ⟨_, object_data ?_, casefold u kind, ?_, (), ?_, ?_⟩
  · exact known_append (known_append (known_append (known_optional (by decide))
      (known_optional (by decide))) (known_optional (by decide))) (known_optional (by decide))
  · have hget : fieldOf (optional "kind" (t.kind.map .str) ++ optional "player" (t.player.map .str) ++
        optional "name" (t.name.map .str) ++ optional "label" (t.label.map .str)) "kind" =
          .str (casefold u kind) := by
      unfold fieldOf
      rw [hkind']
      simp (disch := decide) only [Protocol.get_append, get_optional_self, get_optional_ne,
        Option.or_none, Option.map_some, Option.getD_some]
    rw [hget]
    exact text_of_isOne hreads hkind
  · rw [casefold_of_isOne hsmall hkind, hkind]
    rfl
  · rw [casefold_of_isOne hsmall hkind]
    exact hagain

/-- **A field that may be missing** is read again. -/
theorem ifGiven_again {α : Type} {read : PyValue → Except String α} {made : α → PyValue}
    {raw d : Dict} {name : String} {x : Option α} (hread : Again read made)
    (h : ifGiven raw name read = .ok x) (hget : get d name = x.map made) :
    ifGiven d name read = .ok x := by
  unfold ifGiven
  rw [hget]
  cases x with
  | none => rfl
  | some a =>
    obtain ⟨w, -, hw⟩ := read_of_ifGiven h
    dsimp only [Option.map_some]
    rw [hread w a hw]
    rfl

theorem again_whole (low high : ℤ) (detail : String) :
    Again (fun w => whole low high w detail) .int := by
  intro w n h
  cases w with
  | int m =>
    unfold whole at h ⊢
    dsimp only at h ⊢
    split at h
    · rename_i hbounds
      obtain rfl := Except.ok.inj h
      rw [if_pos hbounds]
    · cases h
  | _ => cases h

theorem again_item : Again (item u) fun thing => itemData thing.1 thing.2 := by
  intro w thing h
  simp only [item, Protocol.bind_eq_ok, refuse_eq_ok] at h ⊢
  obtain ⟨raw, -, name, hname, category, hcategory, count, hcount, -, hsome, hpure⟩ := h
  obtain rfl := Except.ok.inj hpure
  refine ⟨_, object_data ?_, name, ifGiven_again (again_text _ _) hname ?_, category,
    ifGiven_again (again_text _ _) hcategory ?_, count, ifGiven_again (again_whole _ _ _) hcount ?_,
    (), hsome, rfl⟩
  · exact known_append (known_append (known_optional (by decide)) (known_optional (by decide)))
      (known_optional (by decide))
  · simp (disch := decide) only [Protocol.get_append, get_optional_self, get_optional_ne,
      Option.or_none]
  · simp (disch := decide) only [Protocol.get_append, get_optional_self, get_optional_ne,
      Option.none_or, Option.or_none]
  · simp (disch := decide) only [Protocol.get_append, get_optional_self, get_optional_ne,
      Option.none_or]

theorem again_candidate : Again (candidate u) fun place => candidateData place.1 place.2 := by
  intro w place h
  simp only [candidate, Protocol.bind_eq_ok, refuse_eq_ok] at h ⊢
  obtain ⟨raw, -, kind, -, -, hkind, label, hlabel, clue, hclue, hpure⟩ := h
  obtain rfl := Except.ok.inj hpure
  rw [Bool.not_eq_false'] at hkind
  have hreads : ["nearby_building", "area", "named_location", "candidate"].all (readsSame 32) =
      true := by decide
  have hsmall : (["nearby_building", "area", "named_location", "candidate"].all fun name =>
      (PyText.lit name).all fun c => c.toNat < 128 && c.toLower == c) = true := by decide
  refine ⟨_, object_data ?_, casefold u kind, ?_, (), ?_, label, ?_, clue,
    ifGiven_again (again_text _ _) hclue ?_, ?_⟩
  · exact known_append (known_append (known_optional (by decide)) (known_optional (by decide)))
      (known_optional (by decide))
  · simp (disch := decide) only [fieldOf, Protocol.get_append, get_optional_self, get_optional_ne,
      Option.or_none, Option.map_some, Option.getD_some]
    exact text_of_isOne hreads hkind
  · rw [casefold_of_isOne hsmall hkind, hkind]
    rfl
  · simp (disch := decide) only [fieldOf, Protocol.get_append, get_optional_self, get_optional_ne,
      Option.none_or, Option.or_none, Option.map_some, Option.getD_some]
    exact text_again hlabel
  · simp (disch := decide) only [Protocol.get_append, get_optional_self, get_optional_ne,
      Option.none_or, Option.or_none]
  · rw [casefold_of_isOne hsmall hkind]
    rfl

end

/-! ## Nothing forbidden -/

section

variable {u : Unicode} {path : String}

/-- The key of an entry as it is looked up among the forbidden ones. -/
def lookedUp (u : Unicode) (key : PyText) : PyText :=
  (key.flatMap u.casefold).map fun c => if c = '-' then '_' else c

theorem scanEntries_cons {key : PyText} {v : PyValue} {d : Dict} :
    scanEntries u path ((key, v) :: d) = .ok () ↔
      isOne (lookedUp u key) forbiddenKeys = false ∧
        scanForbidden u (path ++ "." ++ Events.shown key) v = .ok () ∧
          scanEntries u path d = .ok () := by
  unfold lookedUp
  rw [scanEntries]
  simp only [Protocol.bind_eq_ok, refuse_eq_ok]
  exact ⟨fun ⟨_, hkey, _, hv, hd⟩ => ⟨hkey, hv, hd⟩, fun ⟨hkey, hv, hd⟩ => ⟨(), hkey, (), hv, hd⟩⟩

theorem scanEntries_append {d d' : Dict} :
    scanEntries u path (d ++ d') = .ok () ↔
      scanEntries u path d = .ok () ∧ scanEntries u path d' = .ok () := by
  induction d with
  | nil => exact ⟨fun h => ⟨rfl, h⟩, fun h => h.2⟩
  | cons e d ih =>
    obtain ⟨key, v⟩ := e
    rw [List.cons_append, scanEntries_cons, scanEntries_cons, ih, and_assoc, and_assoc]

/-- A key of small letters that is not forbidden. -/
def plainKey (name : String) : Bool :=
  ((PyText.lit name).all fun c => c.toNat < 128 && c.toLower == c && c != '-') &&
    !isOne (PyText.lit name) forbiddenKeys

theorem scan_optional {name : String} {v : Option PyValue} (hname : plainKey name = true)
    (hv : ∀ w, v = some w → ∀ path, scanForbidden u path w = .ok ()) :
    scanEntries u path (optional name v) = .ok () := by
  cases v with
  | none => rfl
  | some w =>
    unfold plainKey at hname
    rw [Bool.and_eq_true] at hname
    obtain ⟨hsmall, hfree⟩ := hname
    have hfold : (PyText.lit name).flatMap u.casefold = PyText.lit name := by
      refine u.flatMap_casefold (List.all_eq_true.2 fun c hc => ?_)
      have hthis := List.all_eq_true.1 hsmall c hc
      rw [Bool.and_eq_true] at hthis
      exact hthis.1
    have hdash : ((PyText.lit name).map fun c => if c = '-' then '_' else c) = PyText.lit name := by
      refine (List.map_congr_left fun c hc => ?_).trans (List.map_id _)
      have hthis := List.all_eq_true.1 hsmall c hc
      simp only [Bool.and_eq_true, bne_iff_ne] at hthis
      exact if_neg hthis.2
    show scanEntries u path [(PyText.lit name, w)] = .ok ()
    rw [scanEntries_cons, lookedUp, hfold, hdash]
    exact ⟨by simpa using hfree, hv w rfl _, rfl⟩

theorem scan_listData {items : List PyText} (h : items.length ≤ 16) (path : String) :
    scanForbidden u path (listData items) = .ok () := by
  have hitems : ∀ (items : List PyText) (index : ℕ),
      scanItems u path index (items.map .str) = .ok () := by
    intro items
    induction items with
    | nil => exact fun _ => rfl
    | cons t items ih =>
      intro index
      rw [List.map_cons]
      unfold scanItems
      rw [Protocol.bind_eq_ok]
      exact ⟨(), rfl, ih (index + 1)⟩
  unfold listData scanForbidden
  rw [List.length_map, if_neg (by omega)]
  exact hitems items 0

/-- A text or a number. -/
def scalar : PyValue → Bool
  | .str _ | .int _ => true
  | _ => false

theorem scan_scalar {w : PyValue} (h : scalar w = true) (path : String) :
    scanForbidden u path w = .ok () := by
  cases w with
  | str t => rfl
  | int n => rfl
  | _ => cases h

/-- A field of a text or a number. -/
theorem scan_field {α : Type} {name : String} {x : Option α} {f : α → PyValue}
    (hname : plainKey name = true) (h : ∀ a, scalar (f a) = true) :
    scanEntries u path (optional name (x.map f)) = .ok () := by
  refine scan_optional hname fun w hw path => ?_
  obtain ⟨a, -, rfl⟩ := Option.map_eq_some_iff.1 hw
  exact scan_scalar (h a) path

/-- A field of something else that was made. -/
theorem scan_made {α : Type} {name : String} {x : Option α} {f : α → PyValue}
    (hname : plainKey name = true)
    (h : ∀ a, x = some a → ∀ path, scanForbidden u path (f a) = .ok ()) :
    scanEntries u path (optional name (x.map f)) = .ok () := by
  refine scan_optional hname fun w hw path => ?_
  obtain ⟨a, ha, rfl⟩ := Option.map_eq_some_iff.1 hw
  exact h a ha path

theorem scan_targetData (t : Target) (path : String) :
    scanForbidden u path (targetData t) = .ok () := by
  unfold targetData scanForbidden
  rw [scanEntries_append, scanEntries_append, scanEntries_append]
  exact ⟨⟨⟨scan_field (by decide) fun _ => rfl, scan_field (by decide) fun _ => rfl⟩,
    scan_field (by decide) fun _ => rfl⟩, scan_field (by decide) fun _ => rfl⟩

theorem scan_itemData (it : Item) (category : Option PyText) (path : String) :
    scanForbidden u path (itemData it category) = .ok () := by
  unfold itemData scanForbidden
  rw [scanEntries_append, scanEntries_append]
  exact ⟨⟨scan_field (by decide) fun _ => rfl, scan_field (by decide) fun _ => rfl⟩,
    scan_field (by decide) fun _ => rfl⟩

theorem scan_candidateData (t : Target) (clue : Option PyText) (path : String) :
    scanForbidden u path (candidateData t clue) = .ok () := by
  unfold candidateData scanForbidden
  rw [scanEntries_append, scanEntries_append]
  exact ⟨⟨scan_field (by decide) fun _ => rfl, scan_field (by decide) fun _ => rfl⟩,
    scan_field (by decide) fun _ => rfl⟩

end

/-! ## Validating the data -/

section

variable {u : Unicode} {raw : Dict} {v : Validated}

theorem get_data (raw : Dict) (v : Validated) :
    get (data raw v) "intent" = some (.str v.intent.intent) ∧
    get (data raw v) "mode" = some (.str v.mode) ∧
    get (data raw v) "text" = v.intent.text.map .str ∧
    get (data raw v) "priority" = v.intent.priority.map .int ∧
    get (data raw v) "abort_if" = v.abortIf.map listData ∧
    get (data raw v) "target" = v.intent.target.map targetData ∧
    get (data raw v) "item" = v.intent.item.map (fun it => itemData it v.category) ∧
    get (data raw v) "candidate" = v.intent.candidate.map (fun t => candidateData t v.clue) ∧
    get (data raw v) "loot_focus" = v.intent.lootFocus.map .str ∧
    get (data raw v) "npc_id" = v.intent.npcId.map .str ∧
    get (data raw v) "leader" = v.intent.leader.map .str ∧
    get (data raw v) "squad_id" = v.intent.squadId.map .str ∧
    get (data raw v) "requested_members" = requestedData raw v ∧
    get (data raw v) "members" = v.intent.members.map listData ∧
    get (data raw v) "job" = v.intent.job.map .str ∧
    get (data raw v) "formation" = v.intent.formation.map .str ∧
    get (data raw v) "zone" = v.zone.map .str ∧
    get (data raw v) "mission" = v.mission.map .str := by
  unfold data
  refine ⟨?_, ?_, ?_, ?_, ?_, ?_, ?_, ?_, ?_, ?_, ?_, ?_, ?_, ?_, ?_, ?_, ?_, ?_⟩
  all_goals
    simp (disch := decide) only [Protocol.get_append, get_optional_self, get_optional_ne,
      Option.none_or, Option.or_none]

/-- The keys of the data are those of an intent. -/
theorem known_data (raw : Dict) (v : Validated) :
    firstUnknown (data raw v) allowedKeys = none := by
  refine firstUnknown_eq_none ?_
  unfold data
  repeat' apply known_append
  all_goals exact known_optional (by decide)

/-- What is read of a number of members, or of their ids, is read again. -/
theorem requested_again {requested : Option (List PyText)}
    (h : ifGiven raw "requested_members" (requestedMembers u) = .ok requested)
    (hv : v.intent.requestedMembers = requested.getD []) {d : Dict}
    (hget : get d "requested_members" = requestedData raw v) :
    ifGiven d "requested_members" (requestedMembers u) = .ok requested := by
  unfold ifGiven at h ⊢
  rw [hget]
  unfold requestedData
  cases hraw : get raw "requested_members" with
  | none =>
    rw [hraw] at h
    exact h
  | some w =>
    rw [hraw] at h
    obtain ⟨ids, hread, rfl⟩ := map_eq_ok.1 h
    rw [Option.getD_some] at hv
    cases w with
    | int n => exact h
    | list items =>
      have hagain : idList u (listData ids) "requested_members" = .ok ids :=
        again_idList "requested_members" (.list items) ids hread
      dsimp only [Option.map_some]
      rw [hv]
      exact congrArg (Except.map some) hagain
    | _ => cases hread

/-- Nothing in the data is forbidden. -/
theorem scan_data (habort : ∀ l, v.abortIf = some l → l.length ≤ 16)
    (hmembers : ∀ l, v.intent.members = some l → l.length ≤ 16)
    (hrequested : v.intent.requestedMembers.length ≤ 16) :
    scanEntries u "$" (data raw v) = .ok () := by
  unfold data
  repeat' rw [scanEntries_append]
  have hscalar {name : String} {x : Option PyText} (hname : plainKey name = true) :
      scanEntries u "$" (optional name (x.map .str)) = .ok () := scan_field hname fun _ => rfl
  have hgiven {name : String} {t : PyText} (hname : plainKey name = true) :
      scanEntries u "$" (optional name (some (.str t))) = .ok () :=
    @hscalar name (some t) hname
  refine ⟨⟨⟨⟨⟨⟨⟨⟨⟨⟨⟨⟨⟨⟨⟨⟨⟨?_, ?_⟩, ?_⟩, ?_⟩, ?_⟩, ?_⟩, ?_⟩, ?_⟩, ?_⟩, ?_⟩, ?_⟩, ?_⟩, ?_⟩, ?_⟩, ?_⟩,
    ?_⟩, ?_⟩, ?_⟩
  · exact hgiven (by decide)
  · exact hgiven (by decide)
  · exact hscalar (by decide)
  · exact scan_field (by decide) fun _ => rfl
  · exact scan_made (by decide) fun l hl => scan_listData (habort l hl)
  · exact scan_made (by decide) fun t _ => scan_targetData t
  · exact scan_made (by decide) fun it _ => scan_itemData it v.category
  · exact scan_made (by decide) fun t _ => scan_candidateData t v.clue
  · exact hscalar (by decide)
  · exact hscalar (by decide)
  · exact hscalar (by decide)
  · exact hscalar (by decide)
  · refine scan_made (by decide) fun w _ path => ?_
    cases w with
    | int n => rfl
    | _ => exact scan_listData hrequested path
  · exact scan_made (by decide) fun l hl => scan_listData (hmembers l hl)
  · exact hscalar (by decide)
  · exact hscalar (by decide)
  · exact hscalar (by decide)
  · exact hscalar (by decide)

theorem length_abortIf_le {w : PyValue} {l : List PyText} (h : abortIf u w = .ok l) :
    l.length ≤ 8 := by
  cases w with
  | list items =>
    unfold abortIf at h
    dsimp only at h
    split at h
    · cases h
    · rename_i hcount
      simp only [Bool.or_eq_true, decide_eq_true_eq, not_or, not_lt] at hcount
      rw [length_mapM h]
      exact hcount.2
  | _ => cases h

theorem length_requested_le {requested : Option (List PyText)}
    (h : ifGiven raw "requested_members" (requestedMembers u) = .ok requested) :
    (requested.getD []).length ≤ 16 := by
  cases requested with
  | none => exact Nat.zero_le _
  | some ids =>
    obtain ⟨w, -, hread⟩ := read_of_ifGiven h
    cases w with
    | int n =>
      unfold requestedMembers at hread
      obtain ⟨_, -, rfl⟩ := map_eq_ok.1 hread
      exact Nat.zero_le _
    | _ =>
      simp only [requestedMembers] at hread
      exact length_idList_le hread

/-- A field is given when it was read. -/
theorem isSome_get {α : Type} {read : PyValue → Except String α} {name : String} {x : Option α}
    (h : ifGiven raw name read = .ok x) : (get raw name).isSome = x.isSome := by
  unfold ifGiven at h
  cases hget : get raw name with
  | none =>
    rw [hget] at h
    obtain rfl := Except.ok.inj h
    rfl
  | some w =>
    rw [hget] at h
    obtain ⟨a, -, rfl⟩ := map_eq_ok.1 h
    rfl

/-- **The job is settled**: what it is folded to is a job again, and is folded
to itself. -/
def JobSettled (u : Unicode) (raw : Dict) : Prop :=
  ∀ w t, get raw "job" = some w → text u w "job" 32 = .ok t →
    (text u (.str (casefold u t)) "job" 32).map (casefold u) = .ok (casefold u t)

/-- Where the job is settled the data is read as the intent was. -/
theorem known_again (h : validateDict.known u raw = .ok v) (hsettled : JobSettled u raw) :
    scanEntries u "$" (data raw v) = .ok () ∧ validateDict.known u (data raw v) = .ok v := by
  simp only [validateDict.known, Protocol.bind_eq_ok, refuse_eq_ok] at h ⊢
  obtain ⟨intentText, hintentText, modeText, hmodeText, _, hintent, _, hmode, _, hallowed, h⟩ := h
  obtain ⟨said, hsaid, _, hsay, _, hsaytarget, _, hequip, priority, hpriority, h⟩ := h
  obtain ⟨abort, habort, _, hrequired, aim, haim, thing, hthing, _, hdouble, _, hbuild, h⟩ := h
  obtain ⟨place, hplace, _, hrelocate, focus, hfocus, npcId, hnpcId, leader, hleader, h⟩ := h
  obtain ⟨squadId, hsquadId, requested, hrequested, members, hmembers, _, hform, _, hleads, h⟩ := h
  obtain ⟨job, hjob, check, hcheck, formation, hformation, zone, hzone, mission, hmission, hv⟩ := h
  obtain rfl := Except.ok.inj hv
  obtain ⟨gintent, gmode, gtext, gpriority, gabort, gtarget, gitem, gcandidate, gfocus, gnpcId,
    gleader, gsquadId, grequested, gmembers, gjob, gformation, gzone, gmission⟩ := get_data raw
    { intent :=
        { intent := intentText.flatMap u.upper
          priority := some priority
          target := aim
          candidate := place.map Prod.fst
          item := thing.map Prod.fst
          members := members
          requestedMembers := requested.getD []
          npcId := npcId
          leader := leader
          job := job
          formation := formation
          text := said
          squadId := squadId
          lootFocus := focus }
      mode := modeText.flatMap u.upper
      category := thing.bind Prod.snd
      clue := place.bind Prod.snd
      abortIf := abort
      zone := zone
      mission := mission }
  have hone : isOne (intentText.flatMap u.upper) intents = true := by simpa using hintent
  have hmodes : isOne (modeText.flatMap u.upper) (modeExcluded.map Prod.fst) = true := by
    simpa using hmode
  have hup : (intentText.flatMap u.upper).flatMap u.upper = intentText.flatMap u.upper :=
    upper_of_isOne (by decide) hone
  have hupMode : (modeText.flatMap u.upper).flatMap u.upper = modeText.flatMap u.upper :=
    upper_of_isOne (by decide) hmodes
  have htarget := isSome_get haim
  have hitem := isSome_get hthing
  refine ⟨scan_data ?_ ?_ (length_requested_le hrequested), ?_⟩
  · rintro l rfl
    obtain ⟨w, -, hread⟩ := read_of_ifGiven habort
    exact (length_abortIf_le hread).trans (by omega)
  · rintro l rfl
    obtain ⟨w, -, hread⟩ := read_of_ifGiven hmembers
    exact length_idList_le hread
  generalize data raw _ = d at *
  refine ⟨intentText.flatMap u.upper, ?_, modeText.flatMap u.upper, ?_, ?_⟩
  · unfold fieldOf
    rw [gintent]
    exact text_of_isOne (by decide) hone
  · unfold fieldOf
    rw [gmode]
    exact text_of_isOne (by decide) hmodes
  · rw [hup, hupMode]
    refine ⟨(), hintent, (), hmode, (), hallowed, said, ifGiven_again (again_text _ _) hsaid gtext,
      (), hsay, (), ?_, (), ?_, priority, ?_, abort, ifGiven_again again_abortIf habort gabort, (),
      ?_, aim, ifGiven_again again_target haim gtarget, thing, ifGiven_again again_item hthing ?_,
      (), hdouble, (), hbuild, place, ifGiven_again again_candidate hplace ?_, (), hrelocate, focus,
      ifGiven_again (again_oneOf (by decide) (by decide)) hfocus gfocus, npcId,
      ifGiven_again (again_id _) hnpcId gnpcId, leader, ifGiven_again (again_id _) hleader gleader,
      squadId, ifGiven_again (again_id _) hsquadId gsquadId, requested,
      requested_again hrequested rfl grequested, members,
      ifGiven_again (again_idList _) hmembers gmembers, (), hform, (), hleads, job, ?_, check, hcheck,
      formation, ifGiven_again (again_oneOf (by decide) (by decide)) hformation
        gformation, zone, ifGiven_again (again_text _ _) hzone gzone, mission,
      ifGiven_again (again_text _ _) hmission gmission, rfl⟩
    · rw [gtarget, Option.isSome_map, ← htarget]
      exact hsaytarget
    · rw [gitem, Option.isSome_map, Option.isSome_map, ← hitem]
      exact hequip
    · rw [gpriority]
      exact again_whole 0 3 _ _ _ hpriority
    · rw [gtarget, Option.isSome_map, ← htarget]
      exact hrequired
    · rw [gitem]
      cases thing <;> rfl
    · rw [gcandidate]
      cases place <;> rfl
    · -- The job alone is read by itself only when it is settled.
      unfold ifGiven
      rw [gjob]
      cases job with
      | none => rfl
      | some j =>
        obtain ⟨w, hw, hread⟩ := read_of_ifGiven hjob
        obtain ⟨t, ht, rfl⟩ := map_eq_ok.1 hread
        exact congrArg (Except.map some) (hsettled w t hw ht)

theorem validateDict_eq_ok {d : Dict} : validateDict u d = .ok v ↔
    scanEntries u "$" d = .ok () ∧ firstUnknown d allowedKeys = none ∧
      validateDict.known u d = .ok v := by
  unfold validateDict
  rw [Protocol.bind_eq_ok]
  constructor
  · rintro ⟨_, hscan, h⟩
    cases hunknown : firstUnknown d allowedKeys with
    | none =>
      rw [hunknown] at h
      exact ⟨hscan, rfl, h⟩
    | some key =>
      rw [hunknown] at h
      cases h
  · rintro ⟨hscan, hunknown, h⟩
    refine ⟨(), hscan, ?_⟩
    rw [hunknown]
    exact h

theorem data_congr {raw' : Dict} (h : requestedData raw v = requestedData raw' v) :
    data raw v = data raw' v := by
  unfold data
  rw [h]

/-- What is made of the members does not change with the data. -/
theorem requestedData_data : requestedData (data raw v) v = requestedData raw v := by
  obtain ⟨-, -, -, -, -, -, -, -, -, -, -, -, hrequested, -⟩ := get_data raw v
  unfold requestedData at hrequested ⊢
  rw [hrequested]
  cases get raw "requested_members" with
  | none => rfl
  | some w => cases w <;> rfl

end

/-- **Validating again, exactly when** the job is settled: the normalised data
of an accepted intent is accepted and is its own normalised data. -/
theorem validate_again_iff {u : Unicode} {raw : Dict} {v : Validated}
    (h : validate u (.dict raw) = .ok v) :
    (∃ v', validate u (.dict (data raw v)) = .ok v' ∧ v'.intent.intent = v.intent.intent ∧
      v'.mode = v.mode ∧ data (data raw v) v' = data raw v) ↔ JobSettled u raw := by
  have hknown := (validateDict_eq_ok.1 h).2.2
  constructor
  · rintro ⟨v', h', -, -, hsame⟩ w t hw ht
    obtain ⟨_, heq, haccepted'⟩ := accepted_of_validate h'
    obtain ⟨_, heq₀, haccepted⟩ := accepted_of_validate h
    obtain rfl := PyValue.dict.inj heq
    obtain rfl := PyValue.dict.inj heq₀
    -- The job that was read, and what is read of it.
    have hjob : v.intent.job = some (casefold u t) := by
      have hread := haccepted.ofJob
      unfold ifGiven at hread
      rw [hw] at hread
      dsimp only at hread
      rw [ht] at hread
      exact (Except.ok.inj hread).symm
    obtain ⟨-, -, -, -, -, -, -, -, -, -, -, -, -, -, gjob, -⟩ := get_data raw v
    obtain ⟨-, -, -, -, -, -, -, -, -, -, -, -, -, -, gjob', -⟩ := get_data (data raw v) v'
    rw [hsame, gjob, hjob] at gjob'
    obtain ⟨j, hj, hstr⟩ := Option.map_eq_some_iff.1 gjob'.symm
    obtain rfl := PyValue.str.inj hstr
    obtain ⟨w', hw', hread'⟩ := read_of_ifGiven (hj ▸ haccepted'.ofJob)
    rw [gjob, hjob] at hw'
    obtain rfl := Option.some_inj.1 hw'
    exact hread'
  · intro hsettled
    obtain ⟨hscan, hagain⟩ := known_again hknown hsettled
    refine ⟨v, validateDict_eq_ok.2 ⟨hscan, known_data raw v, hagain⟩, rfl, rfl, ?_⟩
    exact data_congr requestedData_data

/-- A database that folds the German double s. -/
def german : Unicode where
  alnum c := c.isAlphanum || c == 'ß'
  printable c := (32 ≤ c.toNat && c.toNat < 127) || c == 'ß'
  casefold c := if c = 'ß' then ['s', 's'] else [c.toLower]
  upper c := if c = 'ß' then ['S', 'S'] else [c.toUpper]
  alnum_ascii := by
    intro c hc
    have hne : c ≠ 'ß' := by
      rintro rfl
      revert hc
      decide
    simp [hne]
  casefold_ascii := by
    intro c hc
    refine if_neg ?_
    rintro rfl
    revert hc
    decide
  upper_ascii := by
    intro c hc
    refine if_neg ?_
    rintro rfl
    revert hc
    decide

/-- A job of that many letters. -/
def assign (n : ℕ) : Dict :=
  [(PyText.lit "intent", .str (PyText.lit "ASSIGN_JOB")), (PyText.lit "mode", .str (PyText.lit "SAFE")),
    (PyText.lit "job", .str (List.replicate n 'ß'))]

/-- The iff for sixteen letters, which fold to thirty-two. -/
theorem validate_again_iff_sixteen : ∃ v, validate german (.dict (assign 16)) = .ok v ∧
    ((∃ v', validate german (.dict (data (assign 16) v)) = .ok v' ∧
      v'.intent.intent = v.intent.intent ∧ v'.mode = v.mode ∧
        data (data (assign 16) v) v' = data (assign 16) v) ↔ JobSettled german (assign 16)) := by
  have hok : (validate german (.dict (assign 16))).toOption.isSome = true := by decide +kernel
  cases h : validate german (.dict (assign 16)) with
  | error e =>
    rw [h] at hok
    cases hok
  | ok v => exact ⟨v, rfl, validate_again_iff h⟩

/-- **Seventeen letters fold to thirty-four**, which is no job any more. -/
theorem validate_again_seventeen : ∃ v, validate german (.dict (assign 17)) = .ok v ∧
    ∀ v', validate german (.dict (data (assign 17) v)) ≠ .ok v' := by
  have hok : (validate german (.dict (assign 17))).toOption.isSome = true := by decide +kernel
  have hno : ((validate german (.dict (assign 17))).toOption.all fun v =>
      (validate german (.dict (data (assign 17) v))).toOption.isNone) = true := by decide +kernel
  cases h : validate german (.dict (assign 17)) with
  | error e =>
    rw [h] at hok
    cases hok
  | ok v =>
    rw [h, Except.toOption, Option.all_some] at hno
    refine ⟨v, rfl, fun v' h' => ?_⟩
    rw [h'] at hno
    cases hno

end Validator

end GoblinZomboid
