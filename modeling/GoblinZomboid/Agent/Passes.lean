import GoblinZomboid.Agent.Turns
/-!
# The turns of a pass

Each turn of the service speaks for one companion record: the commands it
publishes carry the id of that record's body and one name for its owner.
Every turn but the chat turn takes that name from the record.
-/

namespace GoblinZomboid

namespace Service

open Protocol (Dict Message)
open Controllers (BodyState SafeAction Intent)
open Npc (Driver Orders)

/-! ## The controllers -/

/-- A reflex is of the body it is for. -/
theorem reflex_npcId {b : BodyState} {a : SafeAction} (h : Controllers.reflex b = some a) :
    a.npcId = b.npcId := by
  unfold Controllers.reflex at h
  repeat' split at h
  all_goals cases h
  all_goals rfl

theorem combat_npcId {b : BodyState} {a : SafeAction} (h : Controllers.combat b = some a) :
    a.npcId = b.npcId := by
  unfold Controllers.combat at h
  repeat' split at h
  all_goals cases h
  all_goals rfl

theorem tactical_npcId {i : Intent} {b : BodyState} {a : SafeAction}
    (h : Controllers.tactical i b = .ok a) : a.npcId = b.npcId := by
  unfold Controllers.tactical at h
  dsimp only at h
  repeat' split at h
  all_goals cases h
  all_goals exact not_not.1 ‹¬i.npcId.getD b.npcId ≠ b.npcId›

/-- **The controllers act for the body they are asked about.** -/
theorem decide_npcId {i : Intent} {b : BodyState} {a : SafeAction}
    (h : Controllers.decide i b = .ok a) : a.npcId = b.npcId := by
  unfold Controllers.decide at h
  split at h
  · split at h
    · exact tactical_npcId h
    · exact tactical_npcId h
    · cases h
  · split at h
    · rename_i heq
      rw [← Except.ok.inj h]
      exact reflex_npcId heq
    · split at h
      · rename_i heq
        rw [← Except.ok.inj h]
        exact combat_npcId heq
      · exact tactical_npcId h

/-! ## The chat turn -/

section Chat

variable {config : Config} {desk : Ipc.Desk} {x : Setting} {chat : Chat} {companion : Dict}
variable {speaker : PyText}

/-- What a chat turn may publish: a command for the body of this record in the
speaker's name, and an order only where the game was given none. -/
def Replies (chat : Chat) (companion : Dict) (m : Message) : Prop :=
  ∃ speaker, field chat.fields "speaker" = .str speaker ∧
    Names (npcIdOf companion) (.str speaker) m ∧
    (isOrder m = true → (field chat.fields "direct_action").str? = none)

theorem does_speechFor {good : Message → Prop} {prepared : Option PyText} :
    Does config desk x good 0 (speechFor config prepared) fun _ => True := by
  unfold speechFor
  split
  · exact .pure trivial
  · refine .handle ?_ fun e => .ite (fun _ => .pure trivial) fun _ => .throw
    exact .andThen does_infer fun _ _ => .pure trivial

/-- A reply is no order. -/
theorem does_publishReply {prepared : Option PyText} :
    Does config desk x (Replies chat companion) 0 (publishReply config chat companion prepared)
      fun _ => True := by
  unfold publishReply
  refine .ite (fun _ => .pure trivial) fun _ => ?_
  split
  · rename_i speaker text hspeaker htext
    refine .andThen (does_configureDriver companion) fun body hbody => ?_
    refine .ite (fun _ => .pure trivial) fun _ => .andThen does_ask fun _ _ => ?_
    refine .andThen does_speechFor fun speech _ => ?_
    cases speech with
    | none => exact .pure trivial
    | some speech =>
      refine .andThen does_ask fun allowed _ => .ite (fun _ => .pure trivial) fun _ => ?_
      refine .andThen (does_execute (fun m hm horder => ?_) fun _ h => absurd rfl h) fun _ _ =>
        .pure trivial
      refine ⟨speaker, hspeaker, ?_, fun h => absurd rfl (horder h)⟩
      rw [← hbody]
      exact hm
  · exact .pure trivial

/-- The model is asked, and what it says is published. -/
theorem does_answerChat {combined : Bool} :
    Does config desk x (Replies chat companion) 0 (answerChat config chat companion combined)
      fun _ => True := by
  unfold answerChat
  refine .ite (fun _ => ?_) fun _ => ?_
  · refine .andThen does_infer fun generated _ => .andThen does_publishReply fun _ _ => ?_
    exact .andThen does_ask fun _ _ => .pure trivial
  · exact .andThen does_publishReply fun _ _ => does_infer

/-- **A decision leads to at most one order.** -/
theorem does_giveOrder (hspeaker : field chat.fields "speaker" = .str speaker)
    (hdirect : (field chat.fields "direct_action").str? = none) {body : BodyState}
    (hbody : body.npcId = npcIdOf companion) (intent : Intent) :
    Does config desk x (Replies chat companion) 1 (giveOrder config chat speaker body intent)
      fun _ => True := by
  unfold giveOrder
  split
  · exact .pure trivial
  · rename_i action haction
    refine .ite (fun _ => .pure trivial) fun _ => ?_
    refine .thenDone (does_execute (fun m hm _ => ?_) fun _ _ => le_rfl) fun _ _ => .pure trivial
    refine ⟨speaker, hspeaker, ?_, fun _ => hdirect⟩
    rw [← hbody, ← decide_npcId haction]
    exact hm

/-- **A chat is answered with remarks and at most one order**, which is none
where the game was given the order already. -/
theorem does_handleChat :
    Does config desk x (Replies chat companion) 1 (handleChat config chat companion)
      fun _ => True := by
  unfold handleChat
  split
  · rename_i speaker text hspeaker htext
    refine .andThen (does_configureDriver companion) fun body hbody => ?_
    refine .ite (fun _ => .pure trivial) fun _ => ?_
    split
    · refine .ite (fun _ => .pure trivial) fun _ => ?_
      exact .andThen does_publishReply fun _ _ => .pure trivial
    · rename_i hdirect
      have hdirect : (field chat.fields "direct_action").str? = none := by
        cases hfield : field chat.fields "direct_action" with
        | str t => exact absurd hfield (hdirect t)
        | _ => rfl
      refine .andThen does_ask fun reflex _ => .andThen does_ask fun _ _ => ?_
      split
      · split
        · refine .andThen does_publishReply fun speech _ => ?_
          exact .andThen does_ask fun _ _ => .pure trivial
        · exact .pure trivial
      · rename_i adapter hadapter
        refine .andThen does_ask fun _ _ => .andThen (V := fun _ => True) ?_ fun intent _ => ?_
        · refine .handle (.andThen does_answerChat fun _ _ => .pure trivial) fun e => ?_
          refine .ite (fun _ => ?_) fun _ => .throw
          exact .andThen does_publishReply fun _ _ => .pure trivial
        · cases intent with
          | none => exact .pure trivial
          | some intent => exact does_giveOrder hspeaker hdirect hbody intent
  · exact .pure trivial

/-- A companion that is found by its owner is the owner's. -/
theorem of_companionForOwner_str {u : Unicode} {fields : Dict}
    (h : companionForOwner u fields (.str speaker) = some companion) :
    companion ∈ companions fields ∧ ownedBy u speaker companion = true :=
  ⟨List.mem_of_find?_eq_some h, List.find?_some h⟩

/-- **The turn of a chat**: one companion answers. -/
theorem does_chatTurn {fields : Dict}
    (h : companionForOwner config.unicode fields (field chat.fields "speaker") = some companion) :
    Does config desk x (Replies chat companion) 1 (chatTurn config fields chat) fun _ => True := by
  unfold chatTurn
  rw [h]
  refine .recover does_handleChat fun e => ?_
  refine .andThen (V := fun _ => True) (.handle ?_ fun _ => .pure trivial) fun _ _ => .pure trivial
  exact .andThen does_publishReply fun _ _ => .pure trivial

end Chat

/-! ## The other turns -/

section Others

variable {config : Config} {desk : Ipc.Desk} {x : Setting} {fields : Dict} {k : ℕ}

/-- **In any other turn**: a command for a companion whose record was read, in
the name its record gives its owner. -/
def Belongs (records : List Dict) (m : Message) : Prop :=
  ∃ c ∈ records, Names (npcIdOf c) (field c "owner") m

/-- A companion that is found was read. -/
theorem mem_of_companionForOwner {u : Unicode} {owner : PyValue} {c : Dict}
    (h : companionForOwner u fields owner = some c) : c ∈ companions fields := by
  unfold companionForOwner at h
  split at h
  · exact List.mem_of_find?_eq_some h
  · split at h
    · rename_i hfind
      rw [← Option.some.inj h]
      exact List.mem_of_find?_eq_some hfind
    · exact List.mem_of_head? h

/-- A command of a turn that is no chat turn. -/
theorem does_belongs {a : SafeAction} {o : Orders} {c : Dict} (hturn : isChat x.turn = false)
    (hc : c ∈ x.records) (hid : a.npcId = npcIdOf c) (howner : o.owner = field c "owner") :
    Does config desk x (Belongs x.records) k (execute config a o) fun _ => True := by
  refine does_execute (fun m hm _ => ⟨c, hc, ?_⟩) fun hchat _ => ?_
  · rw [← hid, ← howner]
    exact hm
  · exact absurd hchat (by rw [hturn]; exact Bool.false_ne_true)

/-- A command of a thought. -/
theorem does_selected {a : SafeAction} {o : Orders} {selected : Selected}
    (hturn : isChat x.turn = false) (hread : selected.Read x.records)
    (hid : a.npcId = selected.npcId) (howner : o.owner = selected.owner) :
    Does config desk x (Belongs x.records) k (execute config a o) fun _ => True := by
  obtain ⟨c, hc, hcid, hcowner⟩ := hread
  exact does_belongs hturn hc (hid.trans hcid.symm) (howner.trans hcowner.symm)

/-- What was scheduled is said by the companion it was scheduled for, as its
record is now. -/
theorem does_flushScheduledSays (hturn : isChat x.turn = false)
    (hrecords : ∀ c ∈ companions fields, c ∈ x.records) :
    Does config desk x (Belongs x.records) 0 (flushScheduledSays config fields) fun _ => True := by
  unfold flushScheduledSays
  refine .andThen does_ask fun now _ => .andThen .get fun s _ => .ite (fun _ => .pure trivial) ?_
  intro _
  refine .andThen (.modify fun s _ => ?_) fun _ _ => .each fun e he => ?_
  · exact .of_eq rfl (fun _ h => h) (fun hk => hk.mono (fun _ h => h) (fun _ h => h) fun _ h => h)
      rfl rfl rfl rfl rfl
  · split
    · exact .pure trivial
    · rename_i companion hfind
      have hmem : companion ∈ companions fields :=
        List.mem_reverse.1 (List.mem_of_find?_eq_some hfind)
      refine .ite (fun _ => .pure trivial) fun _ => ?_
      refine .andThen (does_configureDriver companion) fun body hbody => ?_
      refine .ite (fun _ => .pure trivial) fun _ => ?_
      exact .andThen (does_belongs hturn (hrecords companion hmem) hbody rfl) fun _ _ =>
        .pure trivial

/-- An offline decision is about the record the turn began with. -/
theorem does_handleOffline {companion : Dict} (hturn : isChat x.turn = false)
    (hc : companion ∈ x.records) :
    Does config desk x (Belongs x.records) 0 (handleOffline config companion) fun _ => True := by
  unfold handleOffline
  refine .andThen (does_configureDriver companion) fun body hbody => .andThen does_ask fun _ _ => ?_
  refine .andThen (V := fun _ => True) ?_ fun intent _ => ?_
  · refine .handle ?_ fun e => .ite (fun _ => .pure trivial) fun _ => .throw
    exact .andThen does_infer fun _ _ => .pure trivial
  · cases intent with
    | none => exact .pure trivial
    | some intent =>
      dsimp only
      split
      · exact .pure trivial
      · rename_i action haction
        refine .ite (fun _ => .pure trivial) fun _ => .andThen does_readState fun current _ => ?_
        split
        · exact .pure trivial
        · refine .ite (fun _ => .pure trivial) fun _ => .ite (fun _ => .pure trivial) fun _ => ?_
          refine .andThen (does_belongs hturn hc ?_ rfl) fun _ _ => .pure trivial
          rw [decide_npcId haction, hbody]

/-- The record a thought goes on with has the id of the one it is about. -/
theorem of_latestFor {u : Unicode} {selected : Selected} {latest : Dict}
    (h : latestFor u fields selected = some latest) : npcIdOf latest = selected.npcId := by
  obtain ⟨-, hid⟩ := Option.filter_eq_some_iff.1 h
  unfold npcIdOf
  rw [eq_of_beq hid]
  rfl

theorem of_thoughtfulFor {u : Unicode} {selected : Selected} {latest : Dict} {s : State}
    (h : thoughtfulFor u fields selected s = .ok (some latest)) :
    npcIdOf latest = selected.npcId := by
  unfold thoughtfulFor at h
  split at h
  · cases h
  · rename_i found hfound
    split at h
    · cases h
    · simp only [Protocol.bind_eq_ok] at h
      obtain ⟨eligible, -, h⟩ := h
      have h := Except.ok.inj h
      split at h
      · rw [← Option.some.inj h]
        exact of_latestFor hfound
      · cases h

theorem does_finishThink {selected : Selected} (hturn : isChat x.turn = false)
    (hread : selected.Read x.records) :
    Does config desk x (Belongs x.records) 0 (finishThink config fields selected)
      fun _ => True := by
  unfold finishThink
  refine .andThen .get fun s _ => .andThen (.lift fun ready h => h) fun ready hready => ?_
  cases ready with
  | none => exact .pure trivial
  | some latest =>
    refine .andThen (does_configureDriver latest) fun body hbody => ?_
    have hid : body.npcId = selected.npcId := hbody.trans (of_thoughtfulFor hready)
    refine .andThen does_ask fun intent _ => ?_
    split
    · exact .pure trivial
    · rename_i action haction
      refine .andThen does_ask fun speech _ => .andThen does_ask fun allowed _ => ?_
      refine .andThen (.when fun _ => ?_) fun _ _ => ?_
      · exact .andThen (does_selected hturn hread hid rfl) fun _ _ => does_ask
      · refine .ite (fun _ => .pure trivial) fun _ => .andThen does_ask fun cooling _ => ?_
        refine .ite (fun _ => .pure trivial) fun _ => .andThen does_ask fun _ _ => ?_
        refine .andThen (does_selected hturn hread ?_ rfl) fun _ _ => .pure trivial
        rw [decide_npcId haction, hid]

theorem does_finishReflect {selected : Selected} (hturn : isChat x.turn = false)
    (hread : selected.Read x.records) :
    Does config desk x (Belongs x.records) 0 (finishReflect config fields selected)
      fun _ => True := by
  unfold finishReflect
  refine .andThen does_ask fun remark _ => ?_
  cases remark with
  | none => exact .pure trivial
  | some remark =>
    refine .andThen .get fun s _ => ?_
    split
    · exact .pure trivial
    · rename_i latest hlatest
      refine .ite (fun _ => .pure trivial) fun _ => .andThen does_ask fun allowed _ => ?_
      refine .ite (fun _ => .pure trivial) fun _ => ?_
      refine .andThen (does_configureDriver latest) fun body hbody => ?_
      refine .andThen (does_selected hturn hread ?_ rfl) fun _ _ => .pure trivial
      exact hbody.trans (of_latestFor hlatest)

theorem does_finishBanter {pair : List (PyText × PyText)} (hturn : isChat x.turn = false)
    (hrecords : ∀ c ∈ companions fields, c ∈ x.records) :
    Does config desk x (Belongs x.records) 0 (finishBanter config fields pair) fun _ => True := by
  unfold finishBanter
  refine .andThen does_ask fun now _ => .andThen does_ask fun lines _ => ?_
  refine .andThen (.modify fun s _ => ?_) fun _ _ => .andThen does_ask fun _ _ => ?_
  · exact .of_eq rfl (fun _ h => h) (fun hk => hk.mono (fun _ h => h) (fun _ h => h) fun _ h => h)
      rfl rfl rfl rfl rfl
  · exact .andThen (does_flushScheduledSays hturn hrecords) fun _ _ => .pure trivial

/-- **A job that is done** speaks for the record it was begun with. -/
theorem does_finish {job : Job} (hturn : isChat x.turn = false)
    (hrecords : ∀ c ∈ companions fields, c ∈ x.records)
    (hjob : ∀ selected, job.selected? = some selected → selected.Read x.records) :
    Does config desk x (Belongs x.records) 0 (finish config fields job) fun _ => True := by
  unfold finish
  refine .andThen (.modify fun s _ => ?_) fun _ _ => .andThen does_ask fun failed _ => ?_
  · refine .of_eq rfl (fun _ h => h) (fun hk => ?_) rfl rfl rfl rfl rfl
    exact hk.mono (fun _ h => h) (fun _ h => List.mem_of_mem_filter h) fun _ h => h
  · refine .ite (fun _ => .pure trivial) fun _ => ?_
    cases job with
    | think selected => exact does_finishThink hturn (hjob selected rfl)
    | reflect selected => exact does_finishReflect hturn (hjob selected rfl)
    | banter pair => exact does_finishBanter hturn hrecords
    | journal => exact .andThen does_ask fun _ _ => .pure trivial

theorem does_finishJobs (hturn : isChat x.turn = false)
    (hrecords : ∀ c ∈ companions fields, c ∈ x.records) (jobs : List Job)
    (hjobs : ∀ job ∈ jobs, ∀ selected, job.selected? = some selected → selected.Read x.records)
    (outcome : Option String) :
    Does config desk x (Belongs x.records) 0 (finishJobs config fields jobs outcome)
      fun _ => True := by
  induction jobs generalizing outcome with
  | nil => exact .pure trivial
  | cons job jobs ih =>
    unfold finishJobs
    refine .andThen (does_finish hturn hrecords (hjobs job List.mem_cons_self)) fun _ _ => ?_
    exact ih (fun j hj => hjobs j (List.mem_cons_of_mem _ hj)) _

/-! ## Thoughts that are begun -/

variable {good : Message → Prop}

/-- A job is begun about a record that was read. -/
theorem does_submit {job : Job}
    (hjob : ∀ selected, job.selected? = some selected → selected.Read x.records) :
    Does config desk x good k (submit job) fun _ => True := by
  refine .modify fun s hmet => .of_eq rfl (fun _ h => h) (fun hk => ?_) rfl rfl rfl rfl rfl
  refine ⟨fun j hj selected hs => ?_, hk.ambient⟩
  rcases List.mem_append.1 hj with hj | hj
  · exact hk.jobs j hj selected hs
  · obtain rfl := List.mem_singleton.1 hj
    obtain ⟨c, hc, hsame⟩ := hjob selected hs
    exact ⟨c, hmet.records c hc, hsame⟩

/-- What is selected from a record is read from it. -/
theorem read_selectedOf {records : List Dict} {c : Dict} (hc : c ∈ records) :
    (selectedOf c).Read records := ⟨c, hc, rfl, rfl⟩

/-- The candidate is one of the pool. -/
theorem mem_of_reflectCandidate {wants : PyText → Option ℚ} {urgent : Bool} {pool : List Dict}
    {r : Dict × ℚ} (h : reflectCandidate wants urgent pool = some r) : r.1 ∈ pool := by
  -- Whichever of the two is kept, nothing else is.
  have hfold {f : Option (Dict × ℚ) → Dict × ℚ → Option (Dict × ℚ)}
      (hf : ∀ best x, f best x = some x ∨ f best x = best) (l : List (Dict × ℚ))
      (best : Option (Dict × ℚ)) (r : Dict × ℚ) (hr : l.foldl f best = some r) :
      r ∈ l ∨ best = some r := by
    induction l generalizing best with
    | nil => exact .inr hr
    | cons a l ih =>
      rcases ih _ hr with hmem | hbest
      · exact .inl (List.mem_cons_of_mem _ hmem)
      · rcases hf best a with hnew | hold
        · rw [hnew] at hbest
          exact .inl (Option.some.inj hbest ▸ List.mem_cons_self)
        · exact .inr (hold.symm.trans hbest)
  rcases hfold (fun best x => by
    cases best with
    | none => exact .inl rfl
    | some b => exact ite_eq_or_eq _ _ _) _ _ _ h with hmem | hnone
  · obtain ⟨c, hc, hsome⟩ := List.mem_filterMap.1 hmem
    split at hsome
    · obtain ⟨p, -, hp⟩ := Option.bind_eq_some_iff.1 hsome
      split at hp
      · rw [← Option.some.inj hp]
        exact hc
      · cases hp
    · cases hsome
  · cases hnone

theorem does_submitReflections {urgent : Bool}
    (hrecords : ∀ c ∈ companions fields, c ∈ x.records) :
    Does config desk x good 0 (submitReflections config fields urgent) fun _ => True := by
  refine .times (.andThen .get fun s _ => .andThen does_ask fun wants _ => ?_) _
  dsimp only
  split
  · exact .pure trivial
  · rename_i companion _ hcandidate
    refine does_submit fun selected hs => ?_
    have hmem : companion ∈ companions fields :=
      List.mem_of_mem_filter (mem_of_reflectCandidate hcandidate)
    rw [← Option.some.inj hs]
    exact read_selectedOf (hrecords companion hmem)

theorem does_submitThoughts (l : List Dict) (hl : ∀ c ∈ l, c ∈ x.records) :
    Does config desk x good 0 (submitThoughts config l) fun _ => True := by
  induction l with
  | nil => exact .pure trivial
  | cons c l ih =>
    unfold submitThoughts
    refine .andThen .get fun s _ => .ite (fun _ => .pure trivial) fun _ => ?_
    refine .andThen (does_configureDriver c) fun _ _ => .andThen does_ask fun _ _ => ?_
    refine .andThen (does_submit fun selected hs => ?_) fun _ _ =>
      ih fun d hd => hl d (List.mem_cons_of_mem _ hd)
    rw [← Option.some.inj hs]
    exact read_selectedOf (hl c List.mem_cons_self)

/-- A filter that may fail only leaves elements out. -/
theorem mem_of_filterM {α ε : Type} {p : α → Except ε Bool} {l l' : List α}
    (h : l.filterM p = .ok l') : ∀ a ∈ l', a ∈ l := by
  have haux (l acc l' : List α) (h : List.filterAuxM p l acc = .ok l') :
      ∀ a ∈ l', a ∈ l ∨ a ∈ acc := by
    induction l generalizing acc with
    | nil =>
      rw [← Except.ok.inj h]
      exact fun a ha => .inr ha
    | cons b l ih =>
      obtain ⟨keep, -, h⟩ := Protocol.bind_eq_ok.1 h
      intro a ha
      rcases ih _ h a ha with ha | ha
      · exact .inl (List.mem_cons_of_mem _ ha)
      · cases keep with
        | false => exact .inr ha
        | true =>
          rcases List.mem_cons.1 ha with rfl | ha
          · exact .inl List.mem_cons_self
          · exact .inr ha
  obtain ⟨r, hr, h⟩ := Protocol.bind_eq_ok.1 h
  intro a ha
  rw [← Except.ok.inj h] at ha
  rcases haux l [] r hr a (List.mem_reverse.1 ha) with ha | ha
  · exact ha
  · cases ha

theorem mem_of_inOrder {due : PyText → Option ℚ} {l : List Dict} {c : Dict}
    (h : c ∈ inOrder due l) : c ∈ l := List.mem_of_mem_filter (List.mem_mergeSort.1 h)

/-- **Thoughts that are begun** are about companions whose records were
read. -/
theorem does_startThoughts {adapter : Adapter}
    (hrecords : ∀ c ∈ companions fields, c ∈ x.records) :
    Does config desk x good 0 (startThoughts config adapter fields) fun _ => True := by
  unfold startThoughts
  refine .andThen (.when fun _ => does_submitReflections hrecords) fun _ _ => ?_
  refine .andThen (V := fun _ => True) ?_ fun _ _ => ?_
  · unfold submitJournal
    refine .andThen .get fun s _ => .andThen does_ask fun queued _ => .when fun _ => ?_
    exact .andThen does_ask fun _ _ => does_submit nofun
  · refine .andThen (.lift fun eligible h => h) fun eligible heligible => ?_
    refine .andThen (V := fun _ => True) ?_ fun _ _ => ?_
    · unfold submitBanter
      refine .andThen .get fun s _ => .andThen does_ask fun meetup _ => ?_
      split
      · exact .when fun _ => does_submit nofun
      · exact .pure trivial
    · refine .andThen (.when fun _ => .andThen does_ask fun due _ => ?_) fun _ _ =>
        .when fun _ => does_submitReflections hrecords
      exact does_submitThoughts _ fun c hc =>
        hrecords c (mem_of_filterM heligible c (mem_of_inOrder hc))

theorem does_startAmbient (l : List Dict) (hl : ∀ c ∈ l, c ∈ x.records) :
    Does config desk x good 0 (startAmbient l) fun _ => True := by
  induction l with
  | nil => exact .pure trivial
  | cons c l ih =>
    have hrest := ih fun d hd => hl d (List.mem_cons_of_mem _ hd)
    unfold startAmbient
    refine .andThen (.lift fun _ _ => trivial) fun eligible _ => .ite (fun _ => hrest) fun _ => ?_
    refine .andThen does_ask fun due _ => .andThen does_ask fun allowed _ => ?_
    refine .ite (fun _ => hrest) fun _ => .modify fun s hmet => ?_
    refine .of_eq rfl (fun _ h => h) (fun hk => ⟨hk.jobs, fun selected hs => ?_⟩) rfl rfl rfl rfl
      rfl
    rw [← Option.some.inj hs]
    exact read_selectedOf (hmet.records c (hl c List.mem_cons_self))

theorem does_finishAmbient {selected : Selected} (hturn : isChat x.turn = false)
    (hread : selected.Read x.records) :
    Does config desk x (Belongs x.records) 0 (finishAmbient config fields selected)
      fun _ => True := by
  unfold finishAmbient
  refine .andThen does_ask fun done _ => .ite (fun _ => .pure trivial) fun _ => ?_
  refine .andThen (.modify fun s _ => ?_) fun _ _ => .andThen does_ask fun failed _ => ?_
  · refine .of_eq rfl (fun _ h => h) (fun hk => ?_) rfl rfl rfl rfl rfl
    exact hk.mono (fun _ h => h) (fun _ h => h) fun _ h => nomatch h
  · refine .ite (fun _ => .pure trivial) fun _ => .andThen .get fun s _ => ?_
    refine .andThen does_ask fun quiet _ => .ite (fun _ => .pure trivial) fun _ => ?_
    split
    · exact .pure trivial
    · rename_i latest hlatest
      refine .andThen (.lift fun _ _ => trivial) fun eligible _ => .andThen does_ask fun text _ => ?_
      refine .andThen does_ask fun allowed _ => .ite (fun _ => .pure trivial) fun _ => ?_
      refine .andThen (does_configureDriver latest) fun body hbody => ?_
      exact does_selected hturn hread (hbody.trans (of_latestFor hlatest)) rfl

end Others

end Service

end GoblinZomboid
