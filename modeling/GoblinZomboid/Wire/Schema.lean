import GoblinZomboid.Wire.Safe
/-!
# Two checks of one command

What the validator and the gate let through is checked again by the bridge,
which counts bytes, knows fewer kinds and actions and looks for coordinates
in its own way. The fields decide which commands it takes.
-/

namespace GoblinZomboid

namespace Wire

open PyValue (int str dict)
open Protocol (Dict Message get makeMessage encodeMessage isRequired)
open Controllers (SafeAction isOne)

/-! ## What is uttered -/

/-- The fields of an intent that the chat schema knows. -/
def chatKeys : List String := ["intent", "mode", "text", "target", "item", "loot_focus", "job"]

/-- What may stand as the reason of an action. -/
def reasons : List String :=
  Controllers.aloneReasons ++ Validator.intents.map ("validated intent " ++ ·)

/-- What is known of an action that was decided on for an accepted intent of
the chat schema. -/
structure Uttered (a : SafeAction) : Prop where
  reason : a.reason ∈ reasons.map PyText.lit
  label : ∀ l, a.targetLabel = some l → ∀ c ∈ l, Validator.isControl c = false
  itemName : ∀ n, a.itemName = some n → Validator.Clean 64 n
  text : ∀ t, a.text = some t → Validator.Clean 240 t
  leader : a.leader = none
  formation : a.formation = none
  squadId : a.squadId = none
  members : a.members = []

section uttered

variable {u : Unicode} {raw : Dict} {v : Validator.Validated} {s : Controllers.BodyState}
  {a : SafeAction}

theorem ofAlone (h : Controllers.Alone a) : Uttered a := by
  have hlabels : ((Controllers.aloneLabels.map PyText.lit).all fun l =>
      l.all fun c => !Validator.isControl c) = true := by decide +kernel
  have hbare := h.bare
  refine ⟨?_, fun l hl c hc => ?_, fun n hn => ?_, fun t ht => ?_, ?_, ?_, ?_, ?_⟩
  · rw [reasons, List.map_append]
    exact List.mem_append_left _ h.reason
  · exact Bool.not_eq_true' _ ▸ List.all_eq_true.1 (List.all_eq_true.1 hlabels l (h.label l hl)) c hc
  · rw [hbare] at hn
    cases hn
  · rw [hbare] at ht
    cases ht
  all_goals
    rw [hbare]
    rfl

theorem eq_none_of_ifGiven {α : Type} {name : String} {read : PyValue → Except String α}
    {x : Option α} (hchat : ∀ e ∈ raw, isOne e.1 chatKeys = true)
    (hname : isOne (PyText.lit name) chatKeys = false)
    (h : Validator.ifGiven raw name read = .ok x) : x = none := by
  have hnone : get raw name = none := by
    refine Protocol.get_eq_none fun e he heq => ?_
    have hin := hchat e he
    rw [heq, hname] at hin
    cases hin
  rw [Validator.ifGiven, hnone] at h
  cases h
  rfl

/-- The reason names an intent. -/
theorem reason_mem (h : isOne v.intent.intent Validator.intents = true) :
    PyText.lit "validated intent " ++ v.intent.intent ∈ reasons.map PyText.lit := by
  obtain ⟨name, hname, heq⟩ := List.any_eq_true.1 h
  rw [decide_eq_true_eq] at heq
  rw [reasons, List.map_append, List.mem_append, ← heq]
  refine .inr (List.mem_map.2 ⟨_, List.mem_map_of_mem hname, ?_⟩)
  exact String.toList_append

theorem uttered_of_decide (haccepted : Validator.Accepted u raw v)
    (hchat : ∀ e ∈ raw, isOne e.1 chatKeys = true)
    (hdecide : Controllers.decide v.intent s = .ok a) : Uttered a := by
  rcases Controllers.alone_or_tactical hdecide with halone | htactical
  · exact ofAlone halone
  have hasks := Controllers.asks_of_tactical htactical
  have hleader := eq_none_of_ifGiven hchat (by decide) haccepted.ofLeader
  have hformation := eq_none_of_ifGiven hchat (by decide) haccepted.ofFormation
  have hsquadId := eq_none_of_ifGiven hchat (by decide) haccepted.ofSquadId
  have hmembers := eq_none_of_ifGiven hchat (by decide) haccepted.ofMembers
  obtain ⟨requested, hrequested, hrequestedEq⟩ := haccepted.ofRequested
  have hnone := eq_none_of_ifGiven hchat (by decide) hrequested
  refine ⟨?_, fun l hl c hc => ?_, fun n hn => ?_, fun t ht => ?_, ?_, ?_, ?_, ?_⟩
  · rw [hasks.reason]
    exact reason_mem haccepted.intent
  · rw [hasks.targetLabel] at hl
    obtain ⟨target, haim, hfirst⟩ := Option.bind_eq_some_iff.1 hl
    have hclean := Validator.cleanTarget_of_aim haccepted haim
    have hone : target.name = some l ∨ target.label = some l ∨ target.player = some l := by
      unfold Controllers.firstText at hfirst
      split_ifs at hfirst
      · exact .inl hfirst
      · exact .inr (.inl hfirst)
      · exact .inr (.inr hfirst)
    rcases hone with h | h | h
    · exact (hclean.name l h).plain c hc
    · exact (hclean.label l h).plain c hc
    · exact (hclean.player l h).plain c hc
  · rw [hasks.itemName] at hn
    obtain ⟨it, hit, hname⟩ := Option.bind_eq_some_iff.1 hn
    exact Validator.clean_itemName haccepted hit hname
  · exact Validator.clean_said haccepted (hasks.text ▸ ht)
  · rw [hasks.leader, hleader]
  · rw [hasks.formation, hformation]
  · rw [hasks.squadId, hsquadId]
  · rw [hasks.members, hmembers, hrequestedEq, hnone]
    rfl

end uttered

/-! ## What the bridge takes -/

/-- A string that passes the bridge's `safeText`. -/
def Taken (maximum : ℕ) (t : PyText) : Prop := Bridge.safeBytes (Utf8.encode t) maximum = true

/-- **A command the bridge takes**: a known action for a companion, a target
of a kind it knows by its label, and strings that pass its own check. -/
structure Fits (npcId : PyText) (a : SafeAction) (o : Npc.Orders) : Prop where
  action : Bytes.lit a.action.value ∈ Bridge.actions ∧ a.action ≠ .gainAccess
  npcId : Bridge.validNpcId (.str (Utf8.encode npcId)) = true ∧ SafeString npcId
  owner : ∀ name, Npc.ownerName o.owner = some name → Taken 96 name
  text : ∀ t, a.text = some t → Taken 240 (Npc.compactSpeech t)
  said : a.action = .say → a.text.isSome = true
  job : ∀ j, a.job = some j → Taken 32 j
  target : ∀ k, a.targetKind = some k → Utf8.encode k ∈ Bridge.semanticTargetKinds ∧
    Taken 96 ((a.targetLabel.getD []).take 96)
  item : ∀ n, a.itemName = some n → Taken 96 (n.take 64)
  token : ∀ t, Npc.needsToken a o = true → o.authorityToken = str t →
    Net.safeId (Utf8.encode t) 128 = true

/-! ## Tables -/

theorem keysIn_iff {keys : List Bytes} {entries : List (LuaKey × LuaValue)} :
    Bridge.keysIn keys entries = true ↔
      ∀ e ∈ entries, ∃ k, e.1 = .str k ∧ Bytes.lower k ∈ keys := by
  induction entries with
  | nil => exact iff_of_true rfl nofun
  | cons e entries ih =>
    obtain ⟨key, w⟩ := e
    rw [List.forall_mem_cons]
    cases key with
    | str k =>
      rw [Bridge.keysIn, Bool.and_eq_true, ih, List.contains_iff_mem]
      refine and_congr_left' ⟨fun h => ⟨k, rfl, h⟩, fun ⟨k', hk, h⟩ => ?_⟩
      exact LuaKey.str.inj hk ▸ h
    | num n => exact iff_of_false nofun fun h => nomatch h.1
    | bool b => exact iff_of_false nofun fun h => nomatch h.1

theorem keysIn_of_carries {d : Dict} {table : List (LuaKey × LuaValue)} {keys : List Bytes}
    (h : Carries (dict d) (.table table))
    (hkeys : ∀ key ∈ d.map Prod.fst, Bytes.lower (Utf8.encode key) ∈ keys) :
    Bridge.keysIn keys table = true := by
  cases h with
  | dict hperm =>
    refine keysIn_iff.2 fun e he => ?_
    obtain ⟨f, hf, hkey⟩ := List.mem_map.1 (hperm.mem_iff.1 (List.mem_map_of_mem he))
    exact ⟨_, hkey.symm, hkeys f.1 (List.mem_map_of_mem hf)⟩

/-- The bridge's check of an item the driver sends. -/
theorem validItem_of_carries {name : PyText} {n : ℤ} {w : LuaValue} (hn : 1 ≤ n ∧ n ≤ 20)
    (h : Carries (dict [(PyText.lit "name", str name), (PyText.lit "count", int n)]) w) :
    Bridge.validItem w = true ↔ Taken 96 name := by
  have hnodup : (([(PyText.lit "name", str name), (PyText.lit "count", int n)] : Dict).map
      Prod.fst).Nodup := (by decide : [PyText.lit "name", PyText.lit "count"].Nodup)
  have hname := eq_str_of_carries (field_of_carries hnodup h (rfl : get _ "name" = _))
  have hcount := eq_num_of_carries (field_of_carries hnodup h (rfl : get _ "count" = _))
  cases w with
  | table table =>
    have hkeys : Bridge.keysIn Bridge.itemKeys table = true :=
      keysIn_of_carries h (by decide : ∀ key ∈ [PyText.lit "name", PyText.lit "count"],
        Bytes.lower (Utf8.encode key) ∈ Bridge.itemKeys)
    have hwhole : Bridge.nilOr (.num (.finite n)) (Bridge.wholeBetween 1 20) = true := by
      have hlow : (1 : ℚ) ≤ n := by exact_mod_cast hn.1
      have hhigh : (n : ℚ) ≤ 20 := by exact_mod_cast hn.2
      simp [Bridge.nilOr, Bridge.wholeBetween, hlow, hhigh]
    rw [Bridge.validItem, hkeys, hname, hcount, hwhole, Bool.true_and, Bool.and_true]
    rfl
  | _ => cases h

/-- The bridge's check of a target the driver sends. -/
theorem validTarget_of_carries {kind label : PyText} {w : LuaValue}
    (hkind : isOne kind Controllers.targetKinds = true) (hlabel : label ≠ [])
    (h : Carries (dict [(PyText.lit "kind", str kind), (PyText.lit "label", str label)]) w) :
    Bridge.validTarget w = true ↔
      Utf8.encode kind ∈ Bridge.semanticTargetKinds ∧ Taken 96 label := by
  have hnodup : (([(PyText.lit "kind", str kind), (PyText.lit "label", str label)] : Dict).map
      Prod.fst).Nodup := (by decide : [PyText.lit "kind", PyText.lit "label"].Nodup)
  have hkindField := eq_str_of_carries (field_of_carries hnodup h (rfl : get _ "kind" = _))
  have hlabelField := eq_str_of_carries (field_of_carries hnodup h (rfl : get _ "label" = _))
  cases w with
  | table table =>
    have hkeys : Bridge.keysIn Bridge.targetKeys table = true :=
      keysIn_of_carries h (by decide : ∀ key ∈ [PyText.lit "kind", PyText.lit "label"],
        Bytes.lower (Utf8.encode key) ∈ Bridge.targetKeys)
    -- No kind in small letters is one of the kinds in capitals.
    have hsmall : ∀ kind ∈ Controllers.targetKinds,
        (Bytes.upper (Utf8.encode (PyText.lit kind)) == Utf8.encode (PyText.lit kind)
          && Bridge.accessTargetKinds.contains (Utf8.encode (PyText.lit kind))) = false := by
      decide
    obtain ⟨name, hname, heq⟩ := List.any_eq_true.1 hkind
    rw [decide_eq_true_eq] at heq
    have hempty : ((LuaValue.str (Utf8.encode label)).str? == some []) = false := by
      rw [LuaValue.str?, beq_eq_false_iff_ne, ne_eq, Option.some_inj]
      exact fun hnil => hlabel (Utf8.encode_injective hnil)
    rw [Bridge.validTarget, hkeys, hkindField, hlabelField, Bool.true_and]
    dsimp only
    by_cases hsemantic : Utf8.encode kind ∈ Bridge.semanticTargetKinds
    · have hvalid : Bridge.validLabel (.str (Utf8.encode label)) =
          Bridge.safeBytes (Utf8.encode label) 96 := by
        rw [Bridge.validLabel, hempty]
        rfl
      rw [if_pos (List.contains_iff_mem.2 hsemantic)]
      show Bridge.validLabel (.str (Utf8.encode label)) = true ↔ _
      rw [hvalid]
      exact (and_iff_right hsemantic).symm
    · rw [if_neg (fun hc => hsemantic (List.contains_iff_mem.1 hc)), ← heq, hsmall name hname]
      exact iff_of_false (fun h => by cases h) fun hc => hsemantic (heq ▸ hc.1)
  | _ => cases h

/-! ## The whole command -/

section command

variable {u : Unicode} {a : SafeAction} {o : Npc.Orders} {d : Npc.Driver} {clock : ℤ}
  {requestId : PyText} {m : Message} {table : List (LuaKey × LuaValue)}

/-- A string that may be missing passes a check if it passes where it is. -/
theorem nilOr_optional {fields : Dict} (h : Received fields table) {name : String}
    {x : Option PyText} {f : PyText → PyText} (hfree : isRequired (PyText.lit name) = false)
    (hget : get fields name = x.map fun t => str (f t)) (check : LuaValue → Bool) :
    Bridge.nilOr ((LuaValue.table table).field name) check = true ↔
      ∀ t, x = some t → check (.str (Utf8.encode (f t))) = true := by
  cases x with
  | none =>
    rw [h.missing name hfree hget]
    exact iff_of_true rfl nofun
  | some t =>
    rw [eq_str_of_carries (h.field name _ hget)]
    show check (.str (Utf8.encode (f t))) = true ↔ _
    exact ⟨fun hc t' ht' => Option.some_inj.1 ht' ▸ hc, fun hall => hall t rfl⟩

/-- What the gate checked. -/
structure Gated (a : SafeAction) : Prop where
  kind : ∀ k, a.targetKind = some k → isOne k Controllers.targetKinds = true ∧
    ∃ l, a.targetLabel = some l ∧ l ≠ [] ∧ l.length ≤ 96
  focus : ∀ f, a.lootFocus = some f →
    isOne f ["food", "medical", "tools", "ammo", "surprise"] = true
  equip : a.action = .equip → a.itemName = some (PyText.lit "Base.DoubleBarrelShotgun")

theorem gated_of_admitted (h : d.refusal u a o = none) : Gated a ∧ a.npcId = d.npcId ∧
    (Npc.needsToken a o = true → ∃ t, o.authorityToken = str t ∧ t.length ≤ 128) := by
  unfold Npc.Driver.refusal at h
  split_ifs at h with hgate hid hoffline htoken
  rw [Option.not_isSome_iff_eq_none] at hgate
  unfold Controllers.refusal at hgate
  dsimp only at hgate
  split_ifs at hgate with hpriority hkind hlabel hcount hfocus hequip
  refine ⟨⟨fun k hk => ?_, fun f hf => ?_, fun heq => ?_⟩, not_not.1 hid, fun hneeds => ?_⟩
  · have hin : isOne k Controllers.targetKinds = true := by simpa [hk] using hkind
    simp only [hk, Option.isSome_some, Bool.true_and, Bool.or_eq_true, not_or, List.isEmpty_iff,
      decide_eq_true_eq, not_lt] at hlabel
    cases hl : a.targetLabel with
    | none =>
      rw [hl] at hlabel
      exact absurd rfl hlabel.1.1
    | some l =>
      rw [hl] at hlabel
      exact ⟨hin, l, rfl, hlabel.1.1, hlabel.1.2⟩
  · simpa [hf] using hfocus
  · simpa [heq] using hequip
  · rw [hneeds, Bool.true_and, Bool.not_eq_true', Bool.not_eq_false] at htoken
    cases htok : o.authorityToken with
    | str t =>
      rw [htok] at htoken
      simp only [Npc.validToken, Bool.and_eq_true, decide_eq_true_eq] at htoken
      exact ⟨t, rfl, htoken.2⟩
    | _ =>
      rw [htok] at htoken
      cases htoken

/-! ### Strings of a command -/

theorem safeString_of_mem {names : List String} {t : PyText} (h : isOne t names = true)
    (hall : ∀ name ∈ names, SafeString (PyText.lit name)) : SafeString t := by
  obtain ⟨name, hname, heq⟩ := List.any_eq_true.1 h
  rw [decide_eq_true_eq] at heq
  exact heq ▸ hall name hname

theorem safeString_take {t : PyText} {n : ℕ} (hlength : t.length ≤ 256)
    (h : ∀ c ∈ t, Validator.isControl c = false) : SafeString (t.take n) :=
  safeString_of_text ((List.length_take_le' n t).trans hlength)
    fun c hc => h c (List.mem_of_mem_take hc)

theorem safeString_action (a : Action) : SafeString (PyText.lit a.value) := by
  cases a <;> decide

/-- The reason passes the bridge's check, and is safe whole. -/
theorem reason_taken (h : a.reason ∈ reasons.map PyText.lit) :
    Taken 240 (a.reason.take 240) ∧ SafeString a.reason := by
  have hreasons : reasons.map PyText.lit = Controllers.aloneReasons.map PyText.lit ++
      Validator.intents.map fun intent => PyText.lit "validated intent " ++ PyText.lit intent := by
    rw [reasons, List.map_append, List.map_map]
    refine congrArg _ (List.map_congr_left fun intent _ => ?_)
    exact String.toList_append
  have hall : ∀ r ∈ reasons.map PyText.lit,
      r.length ≤ 240 ∧ Bridge.safeBytes (Utf8.encode r) 240 = true := by
    rw [hreasons]
    decide +kernel
  obtain ⟨hlength, hsafe⟩ := hall a.reason h
  rw [List.take_of_length_le hlength]
  exact ⟨hsafe, safeString_of_safeBytes (by decide) hsafe⟩

theorem safeString_kind {k : PyText} (h : isOne k Controllers.targetKinds = true) :
    SafeString k :=
  safeString_of_mem h (by decide)

theorem safeString_focus {f : PyText}
    (h : isOne f ["food", "medical", "tools", "ammo", "surprise"] = true) : SafeString f :=
  safeString_of_mem h (by decide)

theorem safeString_of_safeId {t : PyText} (h : Net.safeId (Utf8.encode t) 128 = true) :
    SafeString t := by
  unfold Net.safeId Net.safeText at h
  simp only [Bool.and_eq_true, decide_eq_true_eq] at h
  obtain ⟨⟨⟨hlength, -⟩, hall⟩, -⟩ := h
  unfold SafeString Net.safeText
  rw [hall, Bool.and_true, Bool.true_or, Bool.and_true, decide_eq_true_eq]
  have hmax : Net.maxString = 1024 := rfl
  omega

theorem safe_text {x : Option PyText} {f : PyText → PyText} {k d : ℕ}
    (h : ∀ t, x = some t → SafeString (f t)) :
    ∀ w, (x.map fun t => str (f t)) = some w → Safe k d w := by
  intro w hw
  obtain ⟨t, ht, rfl⟩ := Option.map_eq_some_iff.1 hw
  exact (safe_str (h t ht)).mono (Nat.zero_le _) (Nat.zero_le _)

theorem safe_pair {x : Option PyText} {f : PyText → Dict} {k d : ℕ} (hk : 2 ≤ k) (hd : 1 ≤ d)
    (h : ∀ t, x = some t → (f t).length = 2 ∧ ∀ e ∈ f t, Safe 0 0 e.2) :
    ∀ w, (x.map fun t => dict (f t)) = some w → Safe k d w := by
  intro w hw
  obtain ⟨t, ht, rfl⟩ := Option.map_eq_some_iff.1 hw
  obtain ⟨hlength, hall⟩ := h t ht
  exact (safe_dict hall).mono (by omega) hd

theorem safe_asDict (huttered : Uttered a) (hgated : Gated a) (hnpcId : SafeString a.npcId)
    (hjob : ∀ j, a.job = some j → SafeString j) : Safe 39 2 (dict (Npc.asDict a)) := by
  have hlength : (Npc.asDict a).length ≤ 13 := by
    have hle := (@keys_asDict a).length_le
    rwa [List.length_map] at hle
  have hall : ∀ e ∈ Npc.asDict a, Safe 2 1 e.2 := by
    unfold Npc.asDict
    simp only [List.forall_mem_append]
    refine ⟨⟨⟨⟨⟨⟨⟨⟨⟨?_, forall_optional (safe_pair le_rfl le_rfl fun k hk => ?_)⟩,
      forall_optional (safe_pair le_rfl le_rfl fun n hn => ?_)⟩, forall_optional ?_⟩, ?_⟩,
      forall_optional (safe_text hjob)⟩, forall_optional ?_⟩,
      forall_optional (safe_text fun t ht => ?_)⟩, forall_optional ?_⟩,
      forall_optional (safe_text fun f hf => ?_)⟩
    · intro e he
      simp only [List.mem_cons, List.not_mem_nil, or_false] at he
      rcases he with rfl | rfl | rfl | rfl
      · exact (safe_str (safeString_action _)).mono (by decide) (by decide)
      · exact (safe_int _).mono (by decide) (by decide)
      · exact (safe_str (reason_taken huttered.reason).2).mono (by decide) (by decide)
      · exact (safe_str hnpcId).mono (by decide) (by decide)
    · refine ⟨rfl, fun e he => ?_⟩
      obtain ⟨hkind, l, hl, -, hle⟩ := hgated.kind k hk
      simp only [List.mem_cons, List.not_mem_nil, or_false] at he
      rcases he with rfl | rfl
      · exact safe_str (safeString_kind hkind)
      · rw [hl]
        exact safe_str (safeString_of_text (hle.trans (by decide)) (huttered.label l hl))
    · refine ⟨rfl, fun e he => ?_⟩
      have hclean := huttered.itemName n hn
      simp only [List.mem_cons, List.not_mem_nil, or_false] at he
      rcases he with rfl | rfl
      · exact safe_str (safeString_of_text (hclean.length.trans (by decide)) hclean.plain)
      · exact safe_int _
    · rw [huttered.leader]
      exact fun _ h => by cases h
    · rw [huttered.members]
      exact fun _ h => by cases h
    · rw [huttered.formation]
      exact fun _ h => by cases h
    · have hclean := huttered.text t ht
      exact safeString_of_text (hclean.length.trans (by decide)) hclean.plain
    · rw [huttered.squadId]
      exact fun _ h => by cases h
    · exact safeString_focus (hgated.focus f hf)
  refine (safe_dict hall).mono ?_ le_rfl
  omega

theorem safe_fields {npcId : PyText} (huttered : Uttered a) (hgated : Gated a)
    (hnpcId : a.npcId = npcId) (hfits : Fits npcId a o)
    (htoken : Npc.needsToken a o = true → ∃ t, o.authorityToken = str t) :
    ∀ e ∈ Npc.fields npcId a o, Safe 39 2 e.2 := by
  have hjob : ∀ j, a.job = some j → SafeString j :=
    fun j hj => safeString_of_safeBytes (by decide) (hfits.job j hj)
  have hself : SafeString npcId := hfits.npcId.2
  unfold Npc.fields
  simp only [List.forall_mem_append]
  refine ⟨⟨⟨⟨⟨⟨⟨⟨⟨⟨⟨⟨⟨?_, forall_optional ?_⟩, forall_ite fun hneeds => ?_⟩,
    forall_ite fun _ => (safe_bool _).mono (by decide) (by decide)⟩,
    forall_ite fun _ => (safe_bool _).mono (by decide) (by decide)⟩,
    forall_optional (safe_pair (by decide) (by decide) fun k hk => ?_)⟩,
    forall_optional (safe_pair (by decide) (by decide) fun n hn => ?_)⟩,
    forall_optional (safe_text fun t ht => ?_)⟩, forall_optional (safe_text fun f hf => ?_)⟩,
    forall_optional ?_⟩, forall_optional (safe_text hjob)⟩, forall_optional ?_⟩,
    forall_optional ?_⟩, ?_⟩
  · intro e he
    simp only [List.mem_cons, List.not_mem_nil, or_false] at he
    rcases he with rfl | rfl | rfl | rfl | rfl
    · exact (safe_str hself).mono (by decide) (by decide)
    · exact (safe_str (safeString_action _)).mono (by decide) (by decide)
    · exact (safe_int _).mono (by decide) (by decide)
    · exact (safe_str (safeString_of_safeBytes (by decide)
        (reason_taken huttered.reason).1)).mono (by decide) (by decide)
    · exact safe_asDict huttered hgated (hnpcId ▸ hself) hjob
  · exact safe_text fun name hname => safeString_of_safeBytes (by decide) (hfits.owner name hname)
  · obtain ⟨t, ht⟩ := htoken hneeds
    rw [ht]
    exact (safe_str (safeString_of_safeId (hfits.token t hneeds ht))).mono (by decide) (by decide)
  · refine ⟨rfl, fun e he => ?_⟩
    obtain ⟨hkind, l, hl, -, hle⟩ := hgated.kind k hk
    simp only [List.mem_cons, List.not_mem_nil, or_false] at he
    rcases he with rfl | rfl
    · exact safe_str (safeString_kind hkind)
    · rw [hl]
      exact safe_str (safeString_take (hle.trans (by decide)) (huttered.label l hl))
  · refine ⟨rfl, fun e he => ?_⟩
    have hclean := huttered.itemName n hn
    simp only [List.mem_cons, List.not_mem_nil, or_false] at he
    rcases he with rfl | rfl
    · exact safe_str (safeString_take (hclean.length.trans (by decide)) hclean.plain)
    · exact safe_int _
  · exact safeString_of_safeBytes (by decide) (hfits.text t ht)
  · exact safeString_focus (hgated.focus f hf)
  · rw [huttered.leader]
    exact fun _ h => by cases h
  · rw [huttered.formation]
    exact fun _ h => by cases h
  · rw [huttered.squadId]
    exact fun _ h => by cases h
  · rw [huttered.members]
    exact fun _ h => by cases h

/-- The whole table is safe. -/
theorem safeTable_of_carries (henvelope : SafeString m.requestId ∧ SafeString m.type)
    (hversion : m.protocol = int Protocol.version) (hflat : m.asDict = m.envelope ++ m.fields)
    (hlength : m.fields.length ≤ 18) (hfields : ∀ e ∈ m.fields, Safe 39 2 e.2)
    (h : Carries (dict m.asDict) (.table table)) : Net.safeTable (.table table) = true := by
  have hall : ∀ e ∈ m.asDict, Safe 39 2 e.2 := by
    rw [hflat, List.forall_mem_append]
    refine ⟨fun e he => ?_, hfields⟩
    rw [Message.envelope, hversion] at he
    simp only [List.mem_cons, List.not_mem_nil, or_false] at he
    rcases he with rfl | rfl | rfl | rfl
    · exact (safe_int _).mono (by decide) (by decide)
    · exact (safe_str henvelope.1).mono (by decide) (by decide)
    · exact (safe_int _).mono (by decide) (by decide)
    · exact (safe_str henvelope.2).mono (by decide) (by decide)
  have hsize : m.asDict.length ≤ 22 := by
    have hfour : m.envelope.length = 4 := rfl
    rw [hflat, List.length_append]
    omega
  have hmax : Net.maxKeys = 2048 := rfl
  obtain ⟨left, hsafe, -⟩ := safe_dict hall _ h 0 0 (by decide) (by omega)
  rw [Net.safeTable, hsafe]

/-- The keys the bridge knows. -/
theorem allowed_of_received {npcId : PyText} (huttered : Uttered a)
    (h : Received (Npc.fields npcId a o) table) :
    Bridge.keysIn Bridge.allowedKeys table = true := by
  have hrequired : ∀ name ∈ Protocol.required,
      Bytes.lower (Utf8.encode (PyText.lit name)) ∈ Bridge.allowedKeys := by decide
  have hnames : ∀ name ∈ Npc.fieldNames, name ∉ ["leader", "formation", "squad_id", "members"] →
      Bytes.lower (Utf8.encode (PyText.lit name)) ∈ Bridge.allowedKeys := by decide
  obtain ⟨hleader, hformation, hsquadId, hmembers⟩ := get_squad_fields npcId a o
  rw [huttered.leader, Option.map_none] at hleader
  rw [huttered.formation, Option.map_none] at hformation
  rw [huttered.squadId, Option.map_none] at hsquadId
  rw [huttered.members, List.isEmpty_nil, if_pos rfl] at hmembers
  refine keysIn_iff.2 fun e he => ?_
  obtain ⟨key, hkey, hcases⟩ := h.keys e he
  refine ⟨_, hkey, ?_⟩
  rcases hcases with hreq | hfield
  · obtain ⟨name, hname, heq⟩ := List.any_eq_true.1 hreq
    rw [decide_eq_true_eq] at heq
    exact heq ▸ hrequired name hname
  · obtain ⟨name, hname, rfl⟩ := List.mem_map.1 (keys_fields.subset hfield)
    refine hnames name hname fun hfour => ?_
    obtain ⟨f, hf, hfkey⟩ := List.mem_map.1 hfield
    have hsome : get (Npc.fields npcId a o) name = some f.2 :=
      (Protocol.get_eq_some_iff nodup_fields).2 (hfkey ▸ hf)
    simp only [List.mem_cons, List.not_mem_nil, or_false] at hfour
    rcases hfour with rfl | rfl | rfl | rfl
    · cases hleader.symm.trans hsome
    · cases hformation.symm.trans hsome
    · cases hsquadId.symm.trans hsome
    · cases hmembers.symm.trans hsome

/-! ### Field by field -/

variable {npcId : PyText}

/-- No target has one of the kinds in capitals. -/
theorem kindIn_access (hgated : Gated a) (h : Received (Npc.fields npcId a o) table) :
    Bridge.kindIn ((LuaValue.table table).field "target") Bridge.accessTargetKinds = false := by
  have hget := get_target_fields npcId a o
  cases hk : a.targetKind with
  | none =>
    rw [hk, Option.map_none] at hget
    rw [h.missing "target" (by decide) hget]
    rfl
  | some k =>
    rw [hk, Option.map_some] at hget
    have hsmall : ∀ kind ∈ Controllers.targetKinds,
        Bridge.accessTargetKinds.contains (Utf8.encode (PyText.lit kind)) = false := by
      decide
    obtain ⟨name, hname, heq⟩ := List.any_eq_true.1 (hgated.kind k hk).1
    rw [decide_eq_true_eq] at heq
    have hnodup : (([(PyText.lit "kind", str k), (PyText.lit "label",
        str ((a.targetLabel.getD []).take 96))] : Dict).map Prod.fst).Nodup :=
      (by decide : [PyText.lit "kind", PyText.lit "label"].Nodup)
    have hkind := eq_str_of_carries
      (field_of_carries hnodup (h.field "target" _ hget) (rfl : get _ "kind" = _))
    rw [Bridge.kindIn, hkind, ← heq]
    exact hsmall name hname

/-- The target of a command passes the bridge's check if its kind and its label
do. -/
theorem target_iff (hgated : Gated a) (h : Received (Npc.fields npcId a o) table) :
    Bridge.nilOr ((LuaValue.table table).field "target") Bridge.validTarget = true ↔
      ∀ k, a.targetKind = some k → Utf8.encode k ∈ Bridge.semanticTargetKinds ∧
        Taken 96 ((a.targetLabel.getD []).take 96) := by
  have hget := get_target_fields npcId a o
  cases hk : a.targetKind with
  | none =>
    rw [hk, Option.map_none] at hget
    rw [h.missing "target" (by decide) hget]
    exact iff_of_true rfl nofun
  | some k =>
    rw [hk, Option.map_some] at hget
    have hcarries := h.field "target" _ hget
    obtain ⟨hkind, l, hl, hne, hlength⟩ := hgated.kind k hk
    rw [hl, Option.getD_some, List.take_of_length_le hlength] at hcarries ⊢
    have hvalid := validTarget_of_carries hkind hne hcarries
    generalize (LuaValue.table table).field "target" = w at hcarries hvalid
    have hnil : w.isNil = false := by
      cases hcarries
      rfl
    rw [Bridge.nilOr, hnil, Bool.false_or, hvalid]
    exact ⟨fun hc k' hk' => Option.some_inj.1 hk' ▸ hc, fun hall => hall k rfl⟩

/-- The item of a command passes the bridge's check if its name does. -/
theorem item_iff (hsent : Sent a o) (h : Received (Npc.fields npcId a o) table) :
    Bridge.nilOr ((LuaValue.table table).field "item") Bridge.validItem = true ↔
      ∀ n, a.itemName = some n → Taken 96 (n.take 64) := by
  have hget := get_item_fields npcId a o
  cases hn : a.itemName with
  | none =>
    rw [hn, Option.map_none] at hget
    rw [h.missing "item" (by decide) hget]
    exact iff_of_true rfl nofun
  | some n =>
    rw [hn, Option.map_some] at hget
    have hcarries := h.field "item" _ hget
    have hvalid := validItem_of_carries (itemCount_between hsent) hcarries
    generalize (LuaValue.table table).field "item" = w at hcarries hvalid
    have hnil : w.isNil = false := by
      cases hcarries
      rfl
    rw [Bridge.nilOr, hnil, Bool.false_or, hvalid]
    exact ⟨fun hc k' hk' => Option.some_inj.1 hk' ▸ hc, fun hall => hall n rfl⟩

/-- An order to equip names the weapon. -/
theorem equip_weapon (hgated : Gated a) (h : Received (Npc.fields npcId a o) table)
    (hequip : a.action = .equip) :
    (((LuaValue.table table).field "item").field "name").str? = some Config.weaponType := by
  have hget := get_item_fields npcId a o
  rw [hgated.equip hequip, Option.map_some] at hget
  have hnodup : (([(PyText.lit "name", str ((PyText.lit "Base.DoubleBarrelShotgun").take 64)),
      (PyText.lit "count", int (Npc.asDict.itemCount a))] : Dict).map Prod.fst).Nodup :=
    (by decide : [PyText.lit "name", PyText.lit "count"].Nodup)
  have hname := eq_str_of_carries
    (field_of_carries hnodup (h.field "item" _ hget) (rfl : get _ "name" = _))
  rw [hname]
  decide

/-- The grant of a command passes the bridge's check. -/
theorem token_iff (hsent : Sent a o) (h : Received (Npc.fields npcId a o) table) :
    Bridge.nilOr ((LuaValue.table table).field "authority_token")
        (fun t => t.str?.any fun s => Net.safeId s 128) = true ↔
      ∀ t, Npc.needsToken a o = true → o.authorityToken = str t →
        Net.safeId (Utf8.encode t) 128 = true := by
  have hget := get_token_fields npcId a o
  by_cases hneeds : Npc.needsToken a o = true
  · obtain ⟨t, ht⟩ := hsent.token hneeds
    rw [if_pos hneeds, ht] at hget
    rw [eq_str_of_carries (h.field "authority_token" _ hget), ht]
    refine ⟨fun hc t' _ ht' => PyValue.str.inj ht' ▸ hc, fun hall => hall t hneeds rfl⟩
  · rw [if_neg hneeds] at hget
    rw [h.missing "authority_token" (by decide) hget]
    exact iff_of_true rfl fun t hneeds' => absurd hneeds' hneeds

/-- The two flags of a command are never both set. -/
theorem flags (h : Received (Npc.fields npcId a o) table) :
    Bridge.nilOr ((LuaValue.table table).field "autonomous") Bridge.isBool = true ∧
      Bridge.nilOr ((LuaValue.table table).field "freewill") Bridge.isBool = true ∧
      (((LuaValue.table table).field "freewill").isTrue &&
        ((LuaValue.table table).field "autonomous").isTrue) = false := by
  have hautonomous := get_autonomous_fields npcId a o
  have hfreewill := get_freewill_fields npcId a o
  have hflag {w : LuaValue} (hw : Carries (.bool true) w) : w = .bool true := by
    cases hw
    rfl
  cases hauto : o.autonomous with
  | true =>
    rw [if_pos hauto] at hautonomous
    rw [hauto, Bool.not_true, Bool.and_false, if_neg (by decide)] at hfreewill
    rw [hflag (h.field "autonomous" _ hautonomous), h.missing "freewill" (by decide) hfreewill]
    exact ⟨rfl, rfl, rfl⟩
  | false =>
    rw [if_neg (by rw [hauto]; decide)] at hautonomous
    rw [h.missing "autonomous" (by decide) hautonomous]
    refine ⟨rfl, ?_, Bool.and_false _⟩
    cases hfree : o.freewill with
    | true =>
      rw [hauto, hfree, if_pos (by decide)] at hfreewill
      rw [hflag (h.field "freewill" _ hfreewill)]
      rfl
    | false =>
      rw [hauto, hfree, if_neg (by decide)] at hfreewill
      rw [h.missing "freewill" (by decide) hfreewill]
      rfl

theorem mem_asDict_of_command (hm : m = ⟨int Protocol.version, requestId, clock,
    PyText.lit "command.npc_action", Npc.fields npcId a o⟩) {e : PyText × PyValue}
    (he : e ∈ Npc.fields npcId a o) : e ∈ m.asDict := by
  have hfields : m.fields = Npc.fields npcId a o := by rw [hm]
  rw [Protocol.asDict_eq fun e he => (Npc.name_of_mem_fields (hfields ▸ he)).1, hfields]
  exact List.mem_append_right _ he

/-- The action of a command is one of the bridge's if its name is. -/
theorem action?_of_received (h : Received (Npc.fields npcId a o) table) :
    Bridge.action? (.table table) =
      if Bytes.lit a.action.value ∈ Bridge.actions then some (Bytes.lit a.action.value) else none := by
  have hupper : ∀ b : Action, (Bytes.upper (Bytes.lit b.value) == Bytes.lit b.value) = true := by
    intro b
    cases b <;> decide
  have haction := eq_str_of_carries (h.field "action" _ (Npc.get_action_fields npcId a o))
  rw [PyText.lit, ← Utf8.lit_eq_encode] at haction
  rw [Bridge.action?, haction]
  dsimp only
  rw [hupper, Bool.true_and]
  simp only [List.contains_iff_mem]

/-- **The bridge takes a command** exactly if its fields fit. -/
theorem wellFormed_iff_fits (huttered : Uttered a) (hgated : Gated a) (hsent : Sent a o)
    (hnpcId : a.npcId = npcId) (hm : m = ⟨int Protocol.version, requestId, clock,
      PyText.lit "command.npc_action", Npc.fields npcId a o⟩)
    (hid : SafeString requestId) (hcarries : Carries (dict m.asDict) (.table table))
    (h : Received (Npc.fields npcId a o) table) :
    Bridge.wellFormed (.table table) = true ↔ Fits npcId a o := by
  have hnpc := eq_str_of_carries (h.field "npc_id" _ (Npc.get_npcId_fields npcId a o))
  have howner := nilOr_optional (f := id) h (by decide : isRequired (PyText.lit "owner") = false)
    (Npc.get_owner_fields npcId a o) (Bridge.safeText · 96)
  have htext := nilOr_optional h (by decide : isRequired (PyText.lit "text") = false)
    (get_text_fields npcId a o) (Bridge.safeText · 240)
  have hjob := nilOr_optional (f := id) h (by decide : isRequired (PyText.lit "job") = false)
    (get_job_fields npcId a o) (Bridge.safeText · 32)
  have hsay : ∀ b : Action, (Bytes.lit b.value == Bytes.lit "SAY") = true ↔ b = .say := by
    intro b
    cases b <;> decide
  have haccess : ∀ b : Action, (Bytes.lit b.value == Bytes.lit "GAIN_ACCESS") = true ↔
      b = .gainAccess := by
    intro b
    cases b <;> decide
  have hsaid : ((LuaValue.table table).field "text").isNil = true ↔ a.text = none := by
    have hget := get_text_fields npcId a o
    cases ht : a.text with
    | none =>
      rw [ht, Option.map_none] at hget
      rw [h.missing "text" (by decide) hget]
      exact iff_of_true rfl rfl
    | some t =>
      rw [ht, Option.map_some] at hget
      rw [eq_str_of_carries (h.field "text" _ hget)]
      exact iff_of_false nofun nofun
  obtain ⟨hauto, hfree, hboth⟩ := flags h
  constructor
  · intro hwell
    unfold Bridge.wellFormed at hwell
    dsimp only at hwell
    rw [action?_of_received h] at hwell
    by_cases hknown : Bytes.lit a.action.value ∈ Bridge.actions
    · rw [if_pos hknown] at hwell
      simp only [Bool.and_eq_true, Bool.not_eq_true'] at hwell
      obtain ⟨⟨hsafe, -⟩, ⟨⟨⟨⟨⟨⟨⟨⟨⟨⟨⟨⟨⟨⟨⟨⟨hn, hown⟩, -⟩, -⟩, htxt⟩, hspeak⟩, -⟩, hj⟩, htarget⟩,
        hgain⟩, hitem⟩, -⟩, htok⟩, -⟩, -⟩, -⟩, -⟩⟩ := hwell
      rw [hnpc] at hn
      have hself : SafeString npcId := by
        have hmem : (.str (Bytes.lit "npc_id"), .str (Utf8.encode npcId)) ∈ table := by
          obtain ⟨w, hw, hvalue⟩ := exists_of_carries hcarries
            (mem_asDict_of_command hm ((Protocol.get_eq_some_iff nodup_fields).1
              (Npc.get_npcId_fields npcId a o)))
          rw [eq_str_of_carries hvalue, PyText.lit, ← Utf8.lit_eq_encode] at hw
          exact hw
        exact safeText_of_safeTable hsafe hmem
      refine ⟨⟨hknown, fun heq => ?_⟩, ⟨hn, hself⟩, howner.1 hown, htext.1 htxt, fun heq => ?_,
        hjob.1 hj, (target_iff hgated h).1 htarget, (item_iff hsent h).1 hitem,
        (token_iff hsent h).1 htok⟩
      · rw [(haccess a.action).2 heq, kindIn_access hgated h] at hgain
        cases hgain
      · rw [(hsay a.action).2 heq, Bool.true_and] at hspeak
        by_contra hnone
        rw [Option.not_isSome_iff_eq_none] at hnone
        rw [hsaid.2 hnone] at hspeak
        cases hspeak
    · rw [if_neg hknown, Bool.and_false] at hwell
      cases hwell
  · intro hfits
    have hfields : m.fields = Npc.fields npcId a o := by rw [hm]
    have hnames : ∀ e ∈ m.fields, isRequired e.1 = false := fun e he =>
      (Npc.name_of_mem_fields (hfields ▸ he)).1
    have htoken := hsent.token
    have hsafe : Net.safeTable (.table table) = true := by
      refine safeTable_of_carries ⟨?_, ?_⟩ ?_ (Protocol.asDict_eq hnames) ?_ ?_ hcarries
      · rw [hm]
        exact hid
      · rw [hm]
        exact (by decide : SafeString (PyText.lit "command.npc_action"))
      · rw [hm]
      · rw [hfields]
        exact length_fields_le npcId a o
      · rw [hfields]
        exact safe_fields huttered hgated hnpcId hfits htoken
    have hpriority : Bridge.nilOr ((LuaValue.table table).field "priority")
        (Bridge.wholeBetween 0 3) = true := by
      have hget : get (Npc.fields npcId a o) "priority" = some (int a.priority) :=
        (Protocol.get_eq_some_iff nodup_fields).2 (by simp [Npc.fields])
      have hlow : (0 : ℚ) ≤ a.priority := by exact_mod_cast hsent.priority.1
      have hhigh : (a.priority : ℚ) ≤ 3 := by exact_mod_cast hsent.priority.2
      rw [eq_num_of_carries (h.field "priority" _ hget)]
      simp [Bridge.nilOr, Bridge.wholeBetween, hlow, hhigh]
    have hreason : Bridge.nilOr ((LuaValue.table table).field "reason")
        (Bridge.safeText · 240) = true := by
      have hget : get (Npc.fields npcId a o) "reason" = some (str (a.reason.take 240)) :=
        (Protocol.get_eq_some_iff nodup_fields).2 (by simp [Npc.fields])
      rw [eq_str_of_carries (h.field "reason" _ hget)]
      exact (reason_taken huttered.reason).1
    have hfocus : Bridge.nilOr ((LuaValue.table table).field "loot_focus") Bridge.validFocus =
        true := by
      refine (nilOr_optional (f := id) h (by decide : isRequired (PyText.lit "loot_focus") = false)
        (get_lootFocus_fields npcId a o) _).2 fun f hf => ?_
      have hall : ∀ name ∈ ["food", "medical", "tools", "ammo", "surprise"],
          Bridge.validFocus (.str (Utf8.encode (PyText.lit name))) = true := by decide
      obtain ⟨name, hname, heq⟩ := List.any_eq_true.1 (hgated.focus f hf)
      rw [decide_eq_true_eq] at heq
      exact heq ▸ hall name hname
    have hcontroller : Bridge.nilOr ((LuaValue.table table).field "controller_action")
        Net.safeTable = true := by
      have hget : get (Npc.fields npcId a o) "controller_action" = some (dict (Npc.asDict a)) :=
        (Protocol.get_eq_some_iff nodup_fields).2 (by simp [Npc.fields])
      obtain ⟨left, hok, -⟩ := safe_asDict huttered hgated (hnpcId ▸ hfits.npcId.2)
        (fun j hj => safeString_of_safeBytes (by decide) (hfits.job j hj)) _
        (h.field "controller_action" _ hget) 0 0 (by decide) (by decide)
      rw [Bridge.nilOr, Net.safeTable, hok, Bool.or_true]
    unfold Bridge.wellFormed
    dsimp only
    rw [action?_of_received h, if_pos hfits.action.1]
    simp only [Bool.and_eq_true, Bool.not_eq_true']
    refine ⟨⟨hsafe, allowed_of_received huttered h⟩, ⟨⟨⟨⟨⟨⟨⟨⟨⟨⟨⟨⟨⟨⟨⟨⟨?_, howner.2 hfits.owner⟩,
      hpriority⟩, hreason⟩, htext.2 hfits.text⟩, ?_⟩, hfocus⟩, hjob.2 hfits.job⟩,
      (target_iff hgated h).2 hfits.target⟩, ?_⟩, (item_iff hsent h).2 hfits.item⟩, ?_⟩,
      (token_iff hsent h).2 hfits.token⟩, hcontroller⟩, hauto⟩, hfree⟩, hboth⟩⟩
    · rw [hnpc]
      exact hfits.npcId.1
    · by_cases hspeech : a.action = .say
      · have hsome := hfits.said hspeech
        have hnot : ((LuaValue.table table).field "text").isNil = false := by
          rw [Bool.eq_false_iff]
          intro hnil
          rw [hsaid.1 hnil] at hsome
          cases hsome
        rw [hnot, Bool.and_false]
      · rw [Bool.eq_false_iff.2 fun heq => hspeech ((hsay a.action).1 heq), Bool.false_and]
    · rw [Bool.eq_false_iff.2 fun heq => hfits.action.2 ((haccess a.action).1 heq),
        Bool.false_and]
    · have hequip : ∀ b : Action, (Bytes.lit b.value == Bytes.lit "EQUIP") = true ↔ b = .equip := by
        intro b
        cases b <;> decide
      by_cases heq : a.action = .equip
      · rw [equip_weapon hgated h heq, bne_self_eq_false, Bool.and_false]
      · rw [Bool.eq_false_iff.2 fun hc => heq ((hequip a.action).1 hc), Bool.false_and]

end command

end Wire

end GoblinZomboid
