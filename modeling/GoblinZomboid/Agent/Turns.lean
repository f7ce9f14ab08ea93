import GoblinZomboid.Agent.Service
import GoblinZomboid.Agent.AtMostOnce
/-!
# What a turn publishes

Every function of the service extends the state it is called in: polls
queue chats, states are read, and what is published goes out in the turn
that is going on. What is published is for one body and one owner, and in
a chat turn at most one order is among it.
-/

namespace GoblinZomboid

namespace Service

open Protocol (Dict Message)
open Controllers (BodyState SafeAction Intent)
open Npc (Driver Orders)

/-- The message is no remark. -/
def isOrder (m : Message) : Bool := !fieldIs m.fields "action" "SAY"

/-- **A command for this body in this name.** -/
def Names (npcId : PyText) (owner : PyValue) (m : Message) : Prop :=
  Protocol.get m.fields "npc_id" = some (.str npcId) ∧
    Protocol.get m.fields "owner" = (Npc.ownerName owner).map .str

/-- The thought was selected from one of these records. -/
def Selected.Read (records : List Dict) (selected : Selected) : Prop :=
  ∃ c ∈ records, npcIdOf c = selected.npcId ∧ field c "owner" = selected.owner

/-- What a job is about. -/
def Job.selected? : Job → Option Selected
  | .think selected | .reflect selected => some selected
  | _ => none

/-- Every pending thought is about a record that was read. -/
structure Known (s : State) : Prop where
  jobs : ∀ job ∈ s.thinkJobs, ∀ selected, job.selected? = some selected →
    selected.Read s.records
  ambient : ∀ selected, s.ambient = some selected → selected.Read s.records

/-- An order that was taken by the game is named by a text. -/
def DirectText (fields : Dict) : Prop :=
  ∀ v, Protocol.get fields "direct_action" = some v → ∃ t, v = .str t

/-- **The queue of chats**: its numbers, its source, its ledger. -/
structure Line (config : Config) (desk : Ipc.Desk) (s : State) : Prop where
  ticket : ∀ c ∈ s.queued, c.ticket < s.queued.length
  pending : ∀ c ∈ s.pendingChats, c ∈ s.queued
  nodup : (s.pendingChats.map (·.ticket)).Nodup
  keys : (s.queued.map (·.key)).Subperm s.desk.returned
  desk : s.desk = Machine.run (Ipc.step (.event []) config.bounds) desk s.polls
  direct : ∀ c ∈ s.queued, DirectText c.fields

/-- A turn in which chats are answered. -/
def isChat : Option Turn → Bool
  | some (.chat _) => true
  | _ => false

/-- **What a function of the service does to the state**: it publishes in the
turn that is going on, good messages only and at most so many orders. -/
structure Extends (config : Config) (desk : Ipc.Desk) (good : Message → Prop) (k : ℕ)
    (s s' : State) : Prop where
  turn : s'.turn = s.turn
  records : ∀ c ∈ s.records, c ∈ s'.records
  known : Known s → Known s'
  line : Line config desk s → Line config desk s'
  queued : ∀ c ∈ s.queued, c ∈ s'.queued
  length : s.queued.length ≤ s'.queued.length
  pending : ∀ c ∈ s'.pendingChats, c ∈ s.pendingChats ∨ s.queued.length ≤ c.ticket
  published : ∃ new : List Message, s'.published = new.map (fun m => (m, s.turn)) ++ s.published ∧
    (∀ m ∈ new, good m) ∧ (isChat s.turn = true → new.countP isOrder ≤ k)

variable {config : Config} {desk : Ipc.Desk} {good : Message → Prop} {k k' : ℕ} {s s' s'' : State}
variable {α β : Type}

namespace Extends

theorem refl (s : State) : Extends config desk good k s s :=
  ⟨rfl, fun _ h => h, id, id, fun _ h => h, le_rfl, fun _ h => .inl h, [], rfl, nofun,
    fun _ => Nat.zero_le _⟩

theorem of_same (h : s' = s) : Extends config desk good k s s' := h ▸ .refl s'

theorem trans (h : Extends config desk good k s s') (h' : Extends config desk good k' s' s'') :
    Extends config desk good (k + k') s s'' := by
  obtain ⟨new, hpub, hgood, hcount⟩ := h.published
  obtain ⟨new', hpub', hgood', hcount'⟩ := h'.published
  refine ⟨h'.turn.trans h.turn, fun c hc => h'.records c (h.records c hc),
    fun hk => h'.known (h.known hk), fun hl => h'.line (h.line hl),
    fun c hc => h'.queued c (h.queued c hc), h.length.trans h'.length, fun c hc => ?_,
    new' ++ new, ?_, fun m hm => ?_, fun hchat => ?_⟩
  · rcases h'.pending c hc with hc | hc
    · exact h.pending c hc
    · exact .inr (h.length.trans hc)
  · rw [hpub', hpub, h.turn, List.map_append, List.append_assoc]
  · rcases List.mem_append.1 hm with hm | hm
    · exact hgood' m hm
    · exact hgood m hm
  · have h1 := hcount hchat
    have h2 := hcount' (by rwa [h.turn])
    rw [List.countP_append]
    omega

theorem mono {good' : Message → Prop} (h : Extends config desk good k s s')
    (hgood : ∀ m, good m → good' m) (hk : isChat s.turn = true → k ≤ k') :
    Extends config desk good' k' s s' := by
  obtain ⟨new, hpub, hall, hcount⟩ := h.published
  exact ⟨h.turn, h.records, h.known, h.line, h.queued, h.length, h.pending, new, hpub,
    fun m hm => hgood m (hall m hm), fun hchat => (hcount hchat).trans (hk hchat)⟩

/-- A change of what is neither queued nor published nor thought about. -/
theorem of_eq (hturn : s'.turn = s.turn) (hrecords : ∀ c ∈ s.records, c ∈ s'.records)
    (hknown : Known s → Known s') (hqueued : s'.queued = s.queued)
    (hpending : s'.pendingChats = s.pendingChats) (hdesk : s'.desk = s.desk)
    (hpolls : s'.polls = s.polls) (hpublished : s'.published = s.published) :
    Extends config desk good k s s' := by
  refine ⟨hturn, hrecords, hknown, fun hl => ?_, fun c hc => hqueued ▸ hc, hqueued ▸ le_rfl,
    fun c hc => .inl (hpending ▸ hc), [], hpublished, nofun, fun _ => Nat.zero_le _⟩
  refine ⟨?_, ?_, ?_, ?_, ?_, ?_⟩
  · rw [hqueued]
    exact hl.ticket
  · rw [hqueued, hpending]
    exact hl.pending
  · rw [hpending]
    exact hl.nodup
  · rw [hqueued, hdesk]
    exact hl.keys
  · rw [hdesk, hpolls]
    exact hl.desk
  · rw [hqueued]
    exact hl.direct

end Extends

theorem Selected.Read.mono {selected : Selected} (h : selected.Read s.records)
    (hrecords : ∀ c ∈ s.records, c ∈ s'.records) : selected.Read s'.records := by
  obtain ⟨c, hc, hid, howner⟩ := h
  exact ⟨c, hrecords c hc, hid, howner⟩

/-- Thoughts are dropped, and records added. -/
theorem Known.mono (h : Known s) (hrecords : ∀ c ∈ s.records, c ∈ s'.records)
    (hjobs : ∀ job ∈ s'.thinkJobs, job ∈ s.thinkJobs)
    (hambient : ∀ selected, s'.ambient = some selected → s.ambient = some selected) : Known s' :=
  ⟨fun job hjob selected hs => (h.jobs job (hjobs job hjob) selected hs).mono hrecords,
    fun selected hs => (h.ambient selected (hambient selected hs)).mono hrecords⟩

/-! ## The rules -/

/-- What is known of the state an action is called in: the turn, and some of
the records that were read. -/
structure Setting where
  turn : Option Turn
  records : List Dict

/-- The state is one of the setting. -/
structure Setting.Met (x : Setting) (s : State) : Prop where
  turn : s.turn = x.turn
  records : ∀ c ∈ x.records, c ∈ s.records

theorem Setting.Met.extends {x : Setting} (h : x.Met s) (hs : Extends config desk good k s s') :
    x.Met s' := ⟨hs.turn.trans h.turn, fun c hc => hs.records c (h.records c hc)⟩

/-- **What an action of the service does**, in this setting: it extends the
state, and ends with such a value. -/
def Does (config : Config) (desk : Ipc.Desk) (x : Setting) (good : Message → Prop) (k : ℕ)
    (m : Act α) (V : α → Prop) : Prop :=
  ∀ s₀, x.Met s₀ → Attempt.Holds (fun s => s = s₀) m
    (fun a s => Extends config desk good k s₀ s ∧ V a) (Extends config desk good k s₀)

variable {x : Setting} {V V' : α → Prop} {W : β → Prop}

namespace Does

theorem pure {a : α} (h : V a) : Does config desk x good k (Pure.pure a) V := fun _ _ =>
  .pure fun _ hs => ⟨.of_same hs, h⟩

theorem throw {e : Error} : Does config desk x good k (throw e : Act α) V := fun _ _ =>
  .throw fun _ hs => .of_same hs

theorem lift {y : Except Error α} (h : ∀ a, y = .ok a → V a) :
    Does config desk x good k (Attempt.lift y) V := fun _ _ =>
  .lift (fun a _ ha hs => ⟨.of_same hs, h a ha⟩) fun _ hs => .of_same hs

/-- One action after another, within the sum of their orders. -/
theorem bind {m : Act α} {f : α → Act β} (hm : Does config desk x good k m V)
    (hf : ∀ a, V a → Does config desk x good k' (f a) W) :
    Does config desk x good (k + k') (m >>= f) W := by
  intro s₀ hmet
  refine .bind (Q := fun a s => Extends config desk good k s₀ s ∧ V a) ?_ fun a => ?_
  · exact (hm s₀ hmet).mono (fun _ h => h) (fun _ _ h => h) fun s h =>
      h.mono (fun _ h => h) fun _ => Nat.le_add_right _ _
  · refine .pointwise fun s hs => ?_
    exact (hf a hs.2 s (hmet.extends hs.1)).weaken (fun _ _ h => ⟨hs.1.trans h.1, h.2⟩)
      fun _ h => hs.1.trans h

/-- Where the first gives no order. -/
theorem andThen {m : Act α} {f : α → Act β} (hm : Does config desk x good 0 m V)
    (hf : ∀ a, V a → Does config desk x good k (f a) W) :
    Does config desk x good k (m >>= f) W := by
  have h := hm.bind hf
  rwa [Nat.zero_add] at h

/-- Where the second gives no order. -/
theorem thenDone {m : Act α} {f : α → Act β} (hm : Does config desk x good k m V)
    (hf : ∀ a, V a → Does config desk x good 0 (f a) W) :
    Does config desk x good k (m >>= f) W := hm.bind hf

theorem mono {good' : Message → Prop} {m : Act α} (h : Does config desk x good k m V)
    (hgood : ∀ m, good m → good' m) (hk : isChat x.turn = true → k ≤ k') (hV : ∀ a, V a → V' a) :
    Does config desk x good' k' m V' := fun _ hmet =>
  (h _ hmet).mono (fun _ h => h)
    (fun _ _ hs => ⟨hs.1.mono hgood (by rwa [hmet.turn]), hV _ hs.2⟩)
    fun _ hs => hs.mono hgood (by rwa [hmet.turn])

/-- An action whose value is not asked about. -/
theorem weaken {m : Act α} (h : Does config desk x good k m V) :
    Does config desk x good k m fun _ => True :=
  h.mono (fun _ h => h) (fun _ => le_rfl) fun _ _ => trivial

/-- Errors are handled, within the sum of the orders. -/
theorem tryCatch {m : Act α} {f : Error → Act α} (hm : Does config desk x good k m V)
    (hf : ∀ e, Does config desk x good k' (f e) V) :
    Does config desk x good (k + k') (tryCatch m f) V := by
  intro s₀ hmet
  have hattempt : Attempt.Holds (fun s => s = s₀) m
      (fun a s => Extends config desk good (k + k') s₀ s ∧ V a) (Extends config desk good k s₀) :=
    (hm s₀ hmet).weaken
      (fun _ _ h => ⟨h.1.mono (fun _ h => h) fun _ => Nat.le_add_right _ _, h.2⟩) fun _ h => h
  refine .tryCatch hattempt (fun e => .pointwise fun s hs => ?_) fun s h => ?_
  · exact (hf e s (hmet.extends hs)).weaken (fun _ _ h => ⟨hs.trans h.1, h.2⟩) fun _ h => hs.trans h
  · exact h.mono (fun _ h => h) fun _ => Nat.le_add_right _ _

/-- Where the attempt gives no order. -/
theorem handle {m : Act α} {f : Error → Act α} (hm : Does config desk x good 0 m V)
    (hf : ∀ e, Does config desk x good k (f e) V) :
    Does config desk x good k (MonadExcept.tryCatch m f) V := by
  have h := hm.tryCatch hf
  rwa [Nat.zero_add] at h

/-- Where the handler gives no order. -/
theorem recover {m : Act α} {f : Error → Act α} (hm : Does config desk x good k m V)
    (hf : ∀ e, Does config desk x good 0 (f e) V) :
    Does config desk x good k (MonadExcept.tryCatch m f) V := hm.tryCatch hf

theorem ite {c : Prop} [Decidable c] {m m' : Act α} (hm : c → Does config desk x good k m V)
    (hm' : ¬c → Does config desk x good k m' V) :
    Does config desk x good k (if c then m else m') V := by
  by_cases hc : c
  · rw [if_pos hc]
    exact hm hc
  · rw [if_neg hc]
    exact hm' hc

theorem when {c : Bool} {m : Act Unit}
    (hm : c = true → Does config desk x good k m fun _ => True) :
    Does config desk x good k (Attempt.when c m) fun _ => True :=
  .ite hm fun _ => .pure trivial

theorem get : Does config desk x good k (Attempt.get : Act State) fun _ => True := fun _ _ =>
  .get fun _ hs => ⟨.of_same hs, trivial⟩

/-- A step of the service's own. -/
theorem modify {f : State → State}
    (h : ∀ s, x.Met s → Extends config desk good k s (f s)) :
    Does config desk x good k (Attempt.modify f : Act Unit) fun _ => True := fun s₀ hmet =>
  .modify fun s hs => ⟨by rw [hs]; exact h s₀ hmet, trivial⟩

theorem each {f : α → Act Unit} {l : List α}
    (h : ∀ a ∈ l, Does config desk x good 0 (f a) fun _ => True) :
    Does config desk x good 0 (Attempt.each f l) fun _ => True := by
  induction l with
  | nil => exact .pure trivial
  | cons a l ih =>
    exact .andThen (h a List.mem_cons_self) fun _ _ =>
      ih fun b hb => h b (List.mem_cons_of_mem _ hb)

theorem times {m : Act Unit} (h : Does config desk x good 0 m fun _ => True) (n : ℕ) :
    Does config desk x good 0 (Attempt.times m n) fun _ => True := by
  induction n with
  | zero => exact .pure trivial
  | succ n ih => exact .andThen h fun _ _ => ih

end Does

/-- The state that is read can be spoken of. -/
theorem does_get_bind {f : State → Act β} (hf : ∀ s, x.Met s → Attempt.Holds (fun s' => s' = s) (f s)
      (fun b s' => Extends config desk good k s s' ∧ W b) (Extends config desk good k s)) :
    Does config desk x good k (Attempt.get >>= f) W := by
  intro s₀ hmet
  refine .bind (Q := fun a s => a = s₀ ∧ s = s₀) (.get fun s hs => ⟨hs, hs⟩) fun a => ?_
  exact .assume fun ha => ha ▸ hf s₀ hmet

/-- A question changes nothing. -/
theorem does_ask {f : Answer → α} : Does config desk x good k (ask f) fun _ => True := by
  intro s₀ _
  refine .call fun t s hs => ?_
  obtain rfl := hs
  by_cases hkilled : t.killed
  · rw [if_pos hkilled]
    exact .refl s
  · rw [if_neg hkilled]
    cases t.fails with
    | none => exact ⟨.refl s, trivial⟩
    | some e => exact .refl s

/-! ## Polling -/

/-- What polls leave alone: they publish nothing and take up no thought. -/
structure Polled (s s' : State) : Prop where
  turn : s'.turn = s.turn
  records : s'.records = s.records
  jobs : s'.thinkJobs = s.thinkJobs
  ambient : s'.ambient = s.ambient
  queued : ∀ c ∈ s.queued, c ∈ s'.queued
  length : s.queued.length ≤ s'.queued.length
  pending : ∀ c ∈ s'.pendingChats, c ∈ s.pendingChats ∨ s.queued.length ≤ c.ticket
  published : s'.published = s.published

theorem Polled.refl (s : State) : Polled s s :=
  ⟨rfl, rfl, rfl, rfl, fun _ h => h, le_rfl, fun _ h => .inl h, rfl⟩

theorem Polled.trans (h : Polled s s') (h' : Polled s' s'') : Polled s s'' := by
  refine ⟨h'.turn.trans h.turn, h'.records.trans h.records, h'.jobs.trans h.jobs,
    h'.ambient.trans h.ambient, fun c hc => h'.queued c (h.queued c hc), h.length.trans h'.length,
    fun c hc => ?_, h'.published.trans h.published⟩
  rcases h'.pending c hc with hc | hc
  · exact h.pending c hc
  · exact .inr (h.length.trans hc)

theorem Polled.extends (h : Polled s s') (hline : Line config desk s → Line config desk s') :
    Extends config desk good k s s' := by
  have hrecords : ∀ c ∈ s.records, c ∈ s'.records := fun c hc => h.records ▸ hc
  refine ⟨h.turn, hrecords, fun hk => ?_, hline, h.queued, h.length, h.pending, [], h.published,
    nofun, fun _ => Nat.zero_le _⟩
  exact hk.mono hrecords (fun _ hj => h.jobs ▸ hj) fun _ hs => h.ambient ▸ hs

/-- The queue, with room for what the messages still to be handled may add. -/
structure Reserved (config : Config) (desk : Ipc.Desk) (rest : List Message) (s : State) : Prop
    extends Line config desk s where
  reserved : (s.queued.map (·.key) ++ rest.map Ipc.key).Subperm s.desk.returned

variable {m : Message} {rest : List Message}

theorem Reserved.tail (h : Reserved config desk (m :: rest) s) : Reserved config desk rest s := by
  refine ⟨h.toLine, List.Subperm.trans (List.Sublist.subperm ?_) h.reserved⟩
  exact (List.Sublist.refl _).append (List.sublist_cons_self _ _)

theorem polled_queueChat (fields : Dict) (s : State) : Polled s (queueChat m fields s) := by
  refine ⟨rfl, rfl, rfl, rfl, fun c hc => List.mem_append_left _ hc, ?_, fun c hc => ?_, rfl⟩
  · show s.queued.length ≤ (s.queued ++ [_]).length
    rw [List.length_append]
    omega
  · rcases List.mem_append.1 (List.mem_of_mem_drop hc) with hc | hc
    · exact .inl hc
    · obtain rfl := List.mem_singleton.1 hc
      exact .inr le_rfl

/-- A chat that is queued takes the place kept for its message. -/
theorem Reserved.queueChat {fields : Dict} (hdirect : DirectText fields)
    (h : Reserved config desk (m :: rest) s) :
    Reserved config desk rest (Service.queueChat m fields s) := by
  have hqueued : (Service.queueChat m fields s).queued =
      s.queued ++ [⟨s.queued.length, Ipc.key m, fields⟩] := rfl
  have hpending : ∀ c ∈ s.pendingChats ++ [(⟨s.queued.length, Ipc.key m, fields⟩ : Chat)],
      c ∈ s.queued ++ [⟨s.queued.length, Ipc.key m, fields⟩] := by
    intro c hc
    rcases List.mem_append.1 hc with hc | hc
    · exact List.mem_append_left _ (h.pending c hc)
    · exact List.mem_append_right _ hc
  have hreserved : ((s.queued.map (·.key) ++ [Ipc.key m]) ++ rest.map Ipc.key).Subperm
      s.desk.returned := by
    have hall := h.reserved
    rwa [List.map_cons, ← List.singleton_append, ← List.append_assoc] at hall
  refine ⟨⟨fun c hc => ?_, fun c hc => hpending c (List.mem_of_mem_drop hc), ?_, ?_, h.desk,
    fun c hc => ?_⟩, ?_⟩
  · rw [hqueued, List.length_append, List.length_singleton]
    rw [hqueued] at hc
    rcases List.mem_append.1 hc with hc | hc
    · exact Nat.lt_succ_of_lt (h.ticket c hc)
    · obtain rfl := List.mem_singleton.1 hc
      exact Nat.lt_succ_self _
  · -- The new number is larger than those of the chats that wait.
    have hall : ((s.pendingChats ++ [(⟨s.queued.length, Ipc.key m, fields⟩ : Chat)]).map
        (·.ticket)).Nodup := by
      rw [List.map_append]
      refine List.Nodup.append h.nodup (List.nodup_singleton _) ?_
      rw [List.map_singleton, List.disjoint_singleton]
      intro hmem
      obtain ⟨c, hc, hticket⟩ := List.mem_map.1 hmem
      exact absurd hticket (Nat.ne_of_lt (h.ticket c (h.pending c hc)))
    exact ((List.drop_sublist _ _).map _).nodup hall
  · rw [hqueued, List.map_append]
    exact ((List.sublist_append_left _ _).subperm).trans hreserved
  · rw [hqueued] at hc
    rcases List.mem_append.1 hc with hc | hc
    · exact h.direct c hc
    · obtain rfl := List.mem_singleton.1 hc
      exact hdirect
  · rw [hqueued, List.map_append]
    exact hreserved

/-- The gate changes nothing but itself. -/
theorem gateEvent_eq (u : Unicode) (clock : ℤ) (m : Message) (s : State) :
    ∃ message gate, gateEvent u clock m s = (.ok message, { s with gate := gate }) :=
  ⟨_, _, rfl⟩

/-- What the gate accepts names its order by a text. -/
theorem directText_of_gateEvent {u : Unicode} {clock : ℤ} {m accepted : Message}
    (h : (gateEvent u clock m s).1 = .ok (some accepted)) : DirectText accepted.fields := by
  unfold gateEvent at h
  dsimp only at h
  have h := Except.ok.inj h
  split at h
  · exact fun v hv => Events.direct_of_make h v hv
  · cases h

/-- Handling an event queues at most the chat it is. -/
theorem holds_handleEvent (config : Config) (desk : Ipc.Desk) (u : Unicode) (m : Message)
    (s₀ : State) :
    Attempt.Holds (fun s => s = s₀) (handleEvent u m)
      (fun _ s => Polled s₀ s ∧
        ∀ rest, Reserved config desk (m :: rest) s₀ → Reserved config desk rest s)
      fun s => Polled s₀ s ∧
        ∀ rest, Reserved config desk (m :: rest) s₀ → Reserved config desk rest s := by
  -- Until the chat is queued the place for it is kept.
  let before (s : State) : Prop := Polled s₀ s ∧
    ∀ rest, Reserved config desk (m :: rest) s₀ → Reserved config desk (m :: rest) s
  let after (s : State) : Prop := Polled s₀ s ∧
    ∀ rest, Reserved config desk (m :: rest) s₀ → Reserved config desk rest s
  have hafter (s : State) (h : before s) : after s := ⟨h.1, fun rest hr => (h.2 rest hr).tail⟩
  have hask {α : Type} {f : Answer → α} {I : State → Prop} : Attempt.Keeps I (ask f) :=
    .call fun t s hs => by by_cases hkilled : t.killed <;> exact hs
  have hstart : Attempt.Holds before (handleEvent u m) (fun _ => after) after := by
    unfold handleEvent
    refine .bind (hask.mono (fun _ h => h) (fun _ _ h => h) hafter) fun clock => ?_
    have hgate (s : State) (hs : before s) : before (gateEvent u clock m s).2 := by
      obtain ⟨message, gate, heq⟩ := gateEvent_eq u clock m s
      rw [heq]
      refine ⟨hs.1.trans ⟨rfl, rfl, rfl, rfl, fun _ h => h, le_rfl, fun _ h => .inl h, rfl⟩, ?_⟩
      intro rest hr
      have hr := hs.2 rest hr
      exact ⟨⟨hr.ticket, hr.pending, hr.nodup, hr.keys, hr.desk, hr.direct⟩, hr.reserved⟩
    refine .bind (Q := fun r s => (∀ accepted, r = some accepted → DirectText accepted.fields) ∧
      before s) (.state (fun s r hs hr => ⟨fun accepted ha => ?_, hgate s hs⟩) fun s e hs he => ?_)
      fun decision => .assume fun hdirect => ?_
    · exact directText_of_gateEvent (hr.trans (congrArg _ ha))
    · exact hafter _ (hgate s hs)
    · cases decision with
      | none => exact hask.mono hafter (fun _ _ h => h) fun _ h => h
      | some accepted =>
        refine .bind (hask.mono (fun _ h => h) (fun _ _ h => h) hafter) fun _ => ?_
        refine .bind (Q := fun _ => after) (.ite (fun _ => .modify fun s hs => ?_) fun _ => ?_)
          fun _ => hask
        · exact ⟨hs.1.trans (polled_queueChat _ s),
            fun rest hr => (hs.2 rest hr).queueChat (hdirect accepted rfl)⟩
        · exact .pure fun s hs => hafter s hs
  exact hstart.mono (fun s hs => hs ▸ ⟨.refl _, fun _ h => h⟩) (fun _ _ h => h) fun _ h => h

/-- The events of a poll are handled one after the other. -/
theorem holds_each_handleEvent (config : Config) (desk : Ipc.Desk) (u : Unicode)
    (taken : List Message) (s₀ : State) :
    Attempt.Holds (fun s => s = s₀) (Attempt.each (handleEvent u) taken)
      (fun _ s => Polled s₀ s ∧ (Reserved config desk taken s₀ → Line config desk s))
      fun s => Polled s₀ s ∧ (Reserved config desk taken s₀ → Line config desk s) := by
  induction taken generalizing s₀ with
  | nil => exact .pure fun s hs => hs ▸ ⟨.refl _, fun h => h.toLine⟩
  | cons m taken ih =>
    refine .bind ((holds_handleEvent config desk u m s₀).weaken (fun _ _ h => h)
      fun s h => ⟨h.1, fun hr => (h.2 taken hr).toLine⟩) fun _ => ?_
    refine .pointwise fun s hs => (ih s).weaken (fun _ s' h => ?_) fun s' h => ?_
    · exact ⟨hs.1.trans h.1, fun hr => h.2 (hs.2 taken hr)⟩
    · exact ⟨hs.1.trans h.1, fun hr => h.2 (hs.2 taken hr)⟩

/-- A poll of the consumer is a step of its ledger, and keeps a place for
each message it returns. -/
theorem pollConsumer_spec (config : Config) (desk : Ipc.Desk) (nowMs : ℤ) (items : List Ipc.Item)
    (s : State) :
    Polled s (pollConsumer config nowMs items s).2 ∧
      (Line config desk s → Line config desk (pollConsumer config nowMs items s).2 ∧
        ∀ taken, (pollConsumer config nowMs items s).1 = .ok taken →
          Reserved config desk taken (pollConsumer config nowMs items s).2) := by
  have hdesk : (pollConsumer config nowMs items s).2.desk =
      Ipc.step (.event []) config.bounds s.desk (.poll nowMs 32 items) := by
    unfold pollConsumer Ipc.step Ipc.poll
    dsimp only
    rcases Ipc.pollItems (.event []) config.bounds nowMs 32 { s.desk with clock := nowMs } [] items
      with ⟨_ | taken, d⟩
    · rfl
    · rfl
  have hgrows := Ipc.grows_pollItems (.event []) config.bounds 32 items
    { s.desk with clock := nowMs } []
  have hsame : (pollConsumer config nowMs items s).2.queued = s.queued ∧
      (pollConsumer config nowMs items s).2.pendingChats = s.pendingChats ∧
      (pollConsumer config nowMs items s).2.polls = s.polls ++ [.poll nowMs 32 items] ∧
      Polled s (pollConsumer config nowMs items s).2 := by
    unfold pollConsumer
    dsimp only
    split
    · exact ⟨rfl, rfl, rfl, ⟨rfl, rfl, rfl, rfl, fun _ h => h, le_rfl, fun _ h => .inl h, rfl⟩⟩
    · exact ⟨rfl, rfl, rfl, ⟨rfl, rfl, rfl, rfl, fun _ h => h, le_rfl, fun _ h => .inl h, rfl⟩⟩
  -- What was returned before is returned still, with what the poll took.
  have hreturned : ∃ taken, (pollConsumer config nowMs items s).2.desk.returned =
      s.desk.returned ++ taken ∧ ∀ l, (pollConsumer config nowMs items s).1 = .ok l →
        taken = l.map Ipc.key := by
    dsimp only at hgrows
    unfold pollConsumer
    dsimp only
    generalize Ipc.pollItems (.event []) config.bounds nowMs 32 { s.desk with clock := nowMs } []
      items = r at hgrows ⊢
    obtain ⟨_ | taken, d⟩ := r
    · refine ⟨[], ?_, fun l hl => nomatch hl⟩
      rw [List.append_nil]
      exact hgrows.returned
    · refine ⟨taken.map Ipc.key, ?_, fun l hl => by rw [Except.ok.inj hl]⟩
      show d.returned ++ _ = _
      rw [show d.returned = s.desk.returned from hgrows.returned]
  obtain ⟨hqueued, hpending, hpolls, hpolled⟩ := hsame
  obtain ⟨taken, hret, htaken⟩ := hreturned
  refine ⟨hpolled, fun hline => ?_⟩
  have hnew : Line config desk (pollConsumer config nowMs items s).2 := by
    refine ⟨?_, ?_, ?_, ?_, ?_, ?_⟩
    · rw [hqueued]
      exact hline.ticket
    · rw [hqueued, hpending]
      exact hline.pending
    · rw [hpending]
      exact hline.nodup
    · rw [hqueued, hret]
      exact hline.keys.trans (List.sublist_append_left _ _).subperm
    · rw [hdesk, hpolls, Machine.run_snoc, ← hline.desk]
    · rw [hqueued]
      exact hline.direct
  refine ⟨hnew, fun l hl => ⟨hnew, ?_⟩⟩
  rw [hqueued, hret, htaken l hl]
  exact (List.subperm_append_right _).2 hline.keys

/-- **Polling the events** publishes nothing, whatever turn it is called
from. -/
theorem does_pollEvents : Does config desk x good k (pollEvents config) fun _ => True := by
  unfold pollEvents
  refine (Does.andThen does_ask fun nowMs _ => .andThen does_ask fun items _ => ?_)
  intro s₀ _
  refine .bind (Q := fun taken s => Polled s₀ s ∧
      (Line config desk s₀ → Reserved config desk taken s)) ?_ fun taken => ?_
  · refine .state (fun s taken hs htaken => ?_) fun s e hs _ => ?_
    · obtain rfl := hs
      have hspec := pollConsumer_spec config desk nowMs items s
      exact ⟨hspec.1, fun h => (hspec.2 h).2 taken htaken⟩
    · obtain rfl := hs
      have hspec := pollConsumer_spec config desk nowMs items s
      exact hspec.1.extends fun h => (hspec.2 h).1
  · refine .pointwise fun s hs => ?_
    have hevents := holds_each_handleEvent config desk config.unicode taken s
    refine hevents.weaken (fun _ s' h => ?_) fun s' h => ?_
    · exact ⟨(hs.1.trans h.1).extends fun hl => h.2 (hs.2 hl), trivial⟩
    · exact (hs.1.trans h.1).extends fun hl => h.2 (hs.2 hl)

/-- A state that is read adds to the records. -/
theorem does_readState : Does config desk x good k readState fun _ => True := by
  unfold readState
  refine .andThen does_ask fun message _ => ?_
  cases message with
  | none => exact .pure trivial
  | some message =>
    refine .andThen (.modify fun s _ => ?_) fun _ _ => .pure trivial
    have hrecords : ∀ c ∈ s.records, c ∈ companions message.2 ++ s.records :=
      fun c hc => List.mem_append_right _ hc
    exact .of_eq rfl hrecords (fun hk => hk.mono hrecords (fun _ h => h) fun _ h => h) rfl rfl rfl
      rfl rfl

theorem does_pollDuringInference :
    Does config desk x good 0 (pollDuringInference config) fun _ => True := by
  unfold pollDuringInference
  refine .andThen does_ask fun early _ => .ite (fun _ => .pure trivial) fun _ => ?_
  refine .andThen does_ask fun _ _ => .andThen does_pollEvents fun _ _ => ?_
  exact .andThen does_ask fun _ _ => .andThen does_readState fun _ _ => does_ask

/-- **A model call** publishes nothing, however often it polls. -/
theorem does_infer {f : Answer → α} : Does config desk x good 0 (infer config f) fun _ => True := by
  unfold infer
  refine .andThen does_ask fun waits _ => .andThen (V := fun _ => True) ?_ fun _ _ => does_ask
  exact .handle (.times does_pollDuringInference waits) fun e => .throw

/-! ## Commands -/

theorem bodyState_npcId {c : Dict} {body : BodyState} (h : bodyState c = .ok body) :
    body.npcId = npcIdOf c := by
  unfold bodyState at h
  simp only [Protocol.bind_eq_ok] at h
  obtain ⟨threat, -, mode, -, hunger, -, thirst, -, fatigue, -, panic, -, injury, -, bodyMode, -, h⟩
    := h
  split at h
  · cases h
  · rw [← Except.ok.inj h]

/-- The driver is set to the body of the record. -/
theorem does_configureDriver (c : Dict) :
    Does config desk x good k (configureDriver c) fun body => body.npcId = npcIdOf c := by
  unfold configureDriver
  refine .andThen (.lift fun body h => bodyState_npcId h) fun body hbody => ?_
  refine .andThen (.modify fun s _ => ?_) fun _ _ => .pure hbody
  exact .of_eq rfl (fun _ h => h) (fun hk => hk.mono (fun _ h => h) (fun _ h => h) fun _ h => h) rfl
    rfl rfl rfl rfl

/-- What is published goes out in the turn that is going on. -/
theorem does_publish {m : Message} (hgood : good m) (hk : isChat x.turn = true → isOrder m = true →
    1 ≤ k) : Does config desk x good k (publish m) fun _ => True := by
  intro s₀ hmet
  refine .call fun t s hs => ?_
  obtain rfl := hs
  have hout : Extends config desk good k s
      (if t.written then { s with published := (m, s.turn) :: s.published } else s) := by
    split
    · refine ⟨rfl, fun _ h => h, fun hknown => ?_, fun h => ⟨h.ticket, h.pending, h.nodup, h.keys,
        h.desk, h.direct⟩, fun _ h => h, le_rfl, fun _ h => .inl h, [m], rfl, ?_, fun hchat => ?_⟩
      · exact hknown.mono (fun _ h => h) (fun _ h => h) fun _ h => h
      · intro m' hm'
        rw [List.mem_singleton.1 hm']
        exact hgood
      · rw [List.countP_singleton]
        split
        · exact hk (by rwa [← hmet.turn]) (by assumption)
        · exact Nat.zero_le _
    · exact .refl s
  dsimp only
  generalize (if t.written then { s with published := (m, s.turn) :: s.published } else s) = s'
    at hout ⊢
  split
  · exact ⟨hout, trivial⟩
  · exact hout

/-- **A command** names the body of its action and the owner it is for. -/
theorem does_execute {a : SafeAction} {o : Orders} (hgood : ∀ m, Names a.npcId o.owner m →
      (isOrder m = true → a.action ≠ .say) → good m)
    (hk : isChat x.turn = true → a.action ≠ .say → 1 ≤ k) :
    Does config desk x good k (execute config a o) fun _ => True := by
  unfold execute
  refine .andThen .get fun s _ => ?_
  split
  · exact .pure trivial
  · rename_i hadmitted
    have hnpc : a.npcId = s.driver.npcId := by
      unfold Npc.Driver.refusal at hadmitted
      split at hadmitted
      · cases hadmitted
      · split at hadmitted
        · cases hadmitted
        · rename_i hsame
          exact not_not.1 hsame
    refine .andThen does_ask fun requestId _ => .andThen does_ask fun clock _ => ?_
    split
    · exact .throw
    · rename_i m hm
      have hfields := Protocol.fields_of_makeMessage (fun e he => Npc.name_of_mem_fields he) hm
      have hnames : Names a.npcId o.owner m := by
        refine ⟨?_, ?_⟩
        · rw [hfields, Npc.get_npcId_fields, hnpc]
        · rw [hfields, Npc.get_owner_fields]
      have hsay : isOrder m = true → a.action ≠ .say := by
        intro horder heq
        unfold isOrder fieldIs field at horder
        rw [hfields, Npc.get_action_fields, heq] at horder
        exact absurd horder (by decide)
      exact does_publish (hgood m hnames hsay) fun hchat horder => hk hchat (hsay horder)

end Service

end GoblinZomboid
