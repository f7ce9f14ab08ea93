import GoblinZomboid.Agent.Passes
/-!
# What the service has published

Over a whole run: which companion each published command speaks for, which
chats have been served, and how many orders each of them led to. A chat
leaves the queue when its turn begins and is never queued again, so what
its one turn publishes is all it ever leads to.
-/

namespace GoblinZomboid

namespace Service

open Protocol (Dict Message)

/-- **Whose companion answered a chat**: all that was published in the turn of
the chat is for the body of one record that was read, which is the speaker's,
and in the speaker's name. -/
def Spoken (u : Unicode) (s : State) (chat : Chat) : Prop :=
  ∃ c ∈ s.records, ∃ speaker, field chat.fields "speaker" = .str speaker ∧
    ownedBy u speaker c = true ∧
    ∀ m, (m, some (.chat chat)) ∈ s.published → Names (npcIdOf c) (.str speaker) m

/-- An order that was published in the turn of the chat with this number. -/
def isOrderOf (ticket : ℕ) : Message × Option Turn → Bool
  | (m, some (.chat chat)) => chat.ticket = ticket && isOrder m
  | _ => false

/-- **The invariant** of the service. -/
structure Inv (config : Config) (desk : Ipc.Desk) (s : State) : Prop where
  known : Known s
  line : Line config desk s
  belongs : ∀ m turn, (m, turn) ∈ s.published → isChat turn = false → Belongs s.records m
  spoken : ∀ m chat, (m, some (.chat chat)) ∈ s.published → Spoken config.unicode s chat
  served : ∀ m chat, (m, some (.chat chat)) ∈ s.published →
    chat ∈ s.queued ∧ ∀ c ∈ s.pendingChats, c.ticket ≠ chat.ticket
  orders : ∀ n, s.published.countP (isOrderOf n) ≤ 1
  direct : ∀ m chat, (m, some (.chat chat)) ∈ s.published → isOrder m = true →
    (field chat.fields "direct_action").str? = none

/-- The chat has left the queue, and was not served before. -/
structure Popped (s : State) (chat : Chat) : Prop where
  queued : chat ∈ s.queued
  pending : ∀ c ∈ s.pendingChats, c.ticket ≠ chat.ticket
  fresh : ∀ m c, (m, some (.chat c)) ∈ s.published → c.ticket ≠ chat.ticket

variable {config : Config} {desk : Ipc.Desk} {fields : Dict} {k : ℕ} {s s' : State}

/-! ## Steps that publish -/

theorem Belongs.mono {records records' : List Dict} {m : Message} (h : Belongs records m)
    (hrecords : ∀ c ∈ records, c ∈ records') : Belongs records' m := by
  obtain ⟨c, hc, hnames⟩ := h
  exact ⟨c, hrecords c hc, hnames⟩

/-- What is published in another turn is no order of this chat. -/
theorem countP_isOrderOf_map {turn : Option Turn} {n : ℕ} (new : List Message)
    (h : ∀ chat, turn = some (.chat chat) → chat.ticket ≠ n) :
    (new.map fun m => (m, turn)).countP (isOrderOf n) = 0 := by
  rw [List.countP_eq_zero]
  intro e he
  obtain ⟨m, -, rfl⟩ := List.mem_map.1 he
  unfold isOrderOf
  split
  · rename_i m' chat heq
    obtain ⟨-, hturn⟩ := Prod.mk.inj heq
    have hne := h chat hturn
    simp only [hne, decide_false, Bool.false_and, Bool.false_eq_true, not_false_iff]
  · exact Bool.false_ne_true

/-- A chat that was served stays served: later chats have larger numbers. -/
theorem Inv.served_of_extends {good : Message → Prop} (hs : Inv config desk s)
    (h : Extends config desk good k s s') {m : Message} {chat : Chat}
    (hmem : (m, some (.chat chat)) ∈ s.published) :
    chat ∈ s'.queued ∧ ∀ c ∈ s'.pendingChats, c.ticket ≠ chat.ticket := by
  obtain ⟨hqueued, hpending⟩ := hs.served m chat hmem
  refine ⟨h.queued chat hqueued, fun c hc => ?_⟩
  rcases h.pending c hc with hold | hnew
  · exact hpending c hold
  · have hticket := hs.line.ticket chat hqueued
    omega

/-- **Any turn but a chat turn** keeps the invariant. -/
theorem Inv.extends (hs : Inv config desk s) (hturn : isChat s.turn = false)
    (h : Extends config desk (Belongs s.records) k s s') : Inv config desk s' := by
  obtain ⟨new, hpub, hgood, -⟩ := h.published
  -- What is new was published in no chat turn.
  have hold {m : Message} {chat : Chat} (hmem : (m, some (.chat chat)) ∈ s'.published) :
      (m, some (.chat chat)) ∈ s.published := by
    rw [hpub] at hmem
    rcases List.mem_append.1 hmem with hmem | hmem
    · obtain ⟨m', -, heq⟩ := List.mem_map.1 hmem
      rw [(Prod.mk.inj heq).2] at hturn
      exact absurd hturn nofun
    · exact hmem
  refine ⟨h.known hs.known, h.line hs.line, fun m turn hmem hchat => ?_, fun m chat hmem => ?_,
    fun m chat hmem => hs.served_of_extends h (hold hmem), fun n => ?_,
    fun m chat hmem => hs.direct m chat (hold hmem)⟩
  · rw [hpub] at hmem
    rcases List.mem_append.1 hmem with hmem | hmem
    · obtain ⟨m', hm', heq⟩ := List.mem_map.1 hmem
      rw [← (Prod.mk.inj heq).1]
      exact (hgood m' hm').mono h.records
    · exact (hs.belongs m turn hmem hchat).mono h.records
  · obtain ⟨c, hc, speaker, hspeaker, howned, hall⟩ := hs.spoken m chat (hold hmem)
    exact ⟨c, h.records c hc, speaker, hspeaker, howned, fun m' hm' => hall m' (hold hm')⟩
  · rw [hpub, List.countP_append, countP_isOrderOf_map new fun chat hchat => ?_, Nat.zero_add]
    · exact hs.orders n
    · rw [hchat] at hturn
      exact absurd hturn nofun

/-- **The turn of a chat** that leaves the queue keeps the invariant. -/
theorem Inv.extends_chat {chat : Chat} {companion : Dict} (hs : Inv config desk s)
    (hturn : s.turn = some (.chat chat)) (hpopped : Popped s chat)
    (hcompanion : companion ∈ s.records) (howned : ∀ speaker,
      field chat.fields "speaker" = .str speaker → ownedBy config.unicode speaker companion = true)
    (h : Extends config desk (Replies chat companion) 1 s s') : Inv config desk s' := by
  obtain ⟨new, hpub, hgood, hcount⟩ := h.published
  rw [hturn] at hpub
  have hnew {m : Message} {turn : Option Turn} (hmem : (m, turn) ∈ s'.published) :
      (m ∈ new ∧ turn = some (.chat chat)) ∨ (m, turn) ∈ s.published := by
    rw [hpub] at hmem
    rcases List.mem_append.1 hmem with hmem | hmem
    · obtain ⟨m', hm', heq⟩ := List.mem_map.1 hmem
      obtain ⟨hm, ht⟩ := Prod.mk.inj heq
      exact .inl ⟨hm ▸ hm', ht.symm⟩
    · exact .inr hmem
  refine ⟨h.known hs.known, h.line hs.line, fun m turn hmem hchat => ?_, fun m c hmem => ?_,
    fun m c hmem => ?_, fun n => ?_, fun m c hmem horder => ?_⟩
  · rcases hnew hmem with ⟨-, rfl⟩ | hmem
    · exact absurd hchat nofun
    · exact (hs.belongs m turn hmem hchat).mono h.records
  · rcases hnew hmem with ⟨hm, heq⟩ | hold
    · obtain rfl : c = chat := by cases heq; rfl
      obtain ⟨speaker, hspeaker, -, -⟩ := hgood m hm
      refine ⟨companion, h.records companion hcompanion, speaker, hspeaker, howned speaker hspeaker,
        fun m' hm' => ?_⟩
      rcases hnew hm' with ⟨hm', -⟩ | hold
      · obtain ⟨speaker', hspeaker', hnames, -⟩ := hgood m' hm'
        rw [hspeaker] at hspeaker'
        rw [PyValue.str.inj hspeaker']
        exact hnames
      · exact absurd rfl (hpopped.fresh m' c hold)
    · obtain ⟨d, hd, speaker, hspeaker, hd', hall⟩ := hs.spoken m c hold
      refine ⟨d, h.records d hd, speaker, hspeaker, hd', fun m' hm' => ?_⟩
      rcases hnew hm' with ⟨-, heq⟩ | hm'
      · obtain rfl : c = chat := by cases heq; rfl
        exact absurd rfl (hpopped.fresh m c hold)
      · exact hall m' hm'
  · rcases hnew hmem with ⟨-, heq⟩ | hold
    · obtain rfl : c = chat := by cases heq; rfl
      refine ⟨h.queued c hpopped.queued, fun d hd => ?_⟩
      rcases h.pending d hd with hd | hd
      · exact hpopped.pending d hd
      · have hticket := hs.line.ticket c hpopped.queued
        omega
    · exact hs.served_of_extends h hold
  · -- The orders of this chat are all new; those of another are all old.
    rw [hpub, List.countP_append]
    by_cases hn : chat.ticket = n
    · have hzero : s.published.countP (isOrderOf n) = 0 := by
        rw [List.countP_eq_zero]
        rintro ⟨m, turn⟩ hm
        unfold isOrderOf
        split
        · rename_i m' c heq
          obtain ⟨-, rfl⟩ := Prod.mk.inj heq
          have hne : c.ticket ≠ n := hn ▸ hpopped.fresh _ c hm
          simp only [hne, decide_false, Bool.false_and, Bool.false_eq_true, not_false_iff]
        · exact Bool.false_ne_true
      have hle : (new.map fun m => (m, some (Turn.chat chat))).countP (isOrderOf n) ≤ 1 := by
        rw [List.countP_map]
        refine le_trans (List.countP_mono_left fun m _ hm => ?_) (hcount (by rw [hturn]; rfl))
        exact (Bool.and_eq_true_iff.1 hm).2
      omega
    · rw [countP_isOrderOf_map new fun c hc => ?_, Nat.zero_add]
      · exact hs.orders n
      · cases hc
        exact hn
  · rcases hnew hmem with ⟨hm, heq⟩ | hold
    · obtain rfl : c = chat := by cases heq; rfl
      obtain ⟨-, -, -, hdirect⟩ := hgood m hm
      exact hdirect horder
    · exact hs.direct m c hold horder

/-! ## A pass -/

/-- The invariant, while these telemetry fields are acted on. -/
def Within (config : Config) (desk : Ipc.Desk) (fields : Dict) (s : State) : Prop :=
  Inv config desk s ∧ ∀ c ∈ companions fields, c ∈ s.records

/-- The driver, the owner and the turn are not in the invariant. -/
theorem Inv.congr (h : Inv config desk s) (hrecords : s'.records = s.records)
    (hqueued : s'.queued = s.queued) (hpending : s'.pendingChats.Sublist s.pendingChats)
    (hdesk : s'.desk = s.desk) (hpolls : s'.polls = s.polls) (hpublished : s'.published = s.published)
    (hjobs : ∀ job ∈ s'.thinkJobs, job ∈ s.thinkJobs)
    (hambient : ∀ selected, s'.ambient = some selected → s.ambient = some selected) :
    Inv config desk s' := by
  refine ⟨h.known.mono (fun _ hc => hrecords ▸ hc) hjobs hambient, ⟨?_, ?_, ?_, ?_, ?_, ?_⟩, ?_, ?_,
    ?_, ?_, ?_⟩
  · rw [hqueued]
    exact h.line.ticket
  · rw [hqueued]
    exact fun c hc => h.line.pending c (hpending.mem hc)
  · exact (hpending.map _).nodup h.line.nodup
  · rw [hqueued, hdesk]
    exact h.line.keys
  · rw [hdesk, hpolls]
    exact h.line.desk
  · rw [hqueued]
    exact h.line.direct
  · rw [hpublished, hrecords]
    exact h.belongs
  · intro m chat hm
    rw [hpublished] at hm
    obtain ⟨c, hc, hspoken⟩ := h.spoken m chat hm
    refine ⟨c, hrecords ▸ hc, ?_⟩
    rwa [hpublished]
  · intro m chat hm
    rw [hpublished] at hm
    obtain ⟨hmem, hall⟩ := h.served m chat hm
    exact ⟨hqueued ▸ hmem, fun c hc => hall c (hpending.mem hc)⟩
  · rw [hpublished]
    exact h.orders
  · rw [hpublished]
    exact h.direct

variable {α : Type}

theorem keeps_ask {I : State → Prop} {f : Answer → α} : Attempt.Keeps I (ask f) :=
  .call fun t s hs => by
    by_cases hkilled : t.killed
    · exact hs
    · exact hs

/-- An action that is taken in no chat turn. -/
theorem keeps_of_does {m : Act α} (hm : ∀ s, Within config desk fields s → isChat s.turn = false →
      Attempt.Holds (fun s' => s' = s) m (fun _ s' => Extends config desk (Belongs s.records) 0 s s')
        (Extends config desk (Belongs s.records) 0 s)) :
    Attempt.Holds (fun s => Within config desk fields s ∧ isChat s.turn = false) m
      (fun _ => Within config desk fields) (Within config desk fields) := by
  refine .pointwise fun s hs => ?_
  have hkeep (s' : State) (h : Extends config desk (Belongs s.records) 0 s s') :
      Within config desk fields s' :=
    ⟨hs.1.1.extends hs.2 h, fun c hc => h.records c (hs.1.2 c hc)⟩
  exact (hm s hs.1 hs.2).weaken (fun _ s' h => hkeep s' h) hkeep

/-- A turn that is no chat turn. -/
theorem keeps_inTurn {turn : Turn} (hturn : isChat (some turn) = false) {m : Act α}
    (hm : ∀ s, Within config desk fields s → isChat s.turn = false →
      Attempt.Holds (fun s' => s' = s) m (fun _ s' => Extends config desk (Belongs s.records) 0 s s')
        (Extends config desk (Belongs s.records) 0 s)) :
    Attempt.Keeps (Within config desk fields) (inTurn turn m) := by
  refine Attempt.Holds.bind (Q := fun _ s => Within config desk fields s ∧ isChat s.turn = false)
    (.modify fun s hs => ⟨⟨?_, hs.2⟩, hturn⟩) fun _ => keeps_of_does hm
  exact hs.1.congr rfl rfl (.refl _) rfl rfl rfl (fun _ h => h) fun _ h => h

/-- What an action does in every setting it does in this one. -/
theorem holds_of_does {m : Act α} {V : α → Prop} (hs : Within config desk fields s)
    (hm : ∀ x : Setting, x.turn = s.turn → (∀ c ∈ companions fields, c ∈ x.records) →
      x.records = s.records → Does config desk x (Belongs x.records) 0 m V) :
    Attempt.Holds (fun s' => s' = s) m (fun _ s' => Extends config desk (Belongs s.records) 0 s s')
      (Extends config desk (Belongs s.records) 0 s) := by
  have h := hm ⟨s.turn, s.records⟩ rfl hs.2 rfl s ⟨rfl, fun _ hc => hc⟩
  exact h.weaken (fun _ _ h => h.1) fun _ h => h

/-- **Thoughts** are finished for the records they were begun with. -/
theorem holds_thinkTick (hs : Within config desk fields s) (hturn : isChat s.turn = false) :
    Attempt.Holds (fun s' => s' = s) (thinkTick config fields)
      (fun _ s' => Extends config desk (Belongs s.records) 0 s s')
      (Extends config desk (Belongs s.records) 0 s) := by
  refine .bind (Q := fun a s' => a = s ∧ s' = s) (.get fun s' h => ⟨h, h⟩) fun a => .assume ?_
  rintro rfl
  refine holds_of_does (V := fun _ => True) hs fun x hx hrecords hall => ?_
  have hxturn : isChat x.turn = false := hx ▸ hturn
  refine .andThen does_ask fun done _ => ?_
  refine .andThen (does_finishJobs hxturn hrecords _ (fun job hjob selected hsel => ?_) none)
    fun outcome _ => .andThen .get fun s' _ => ?_
  · rw [hall]
    exact hs.1.known.jobs job (List.mem_of_mem_filter hjob) selected hsel
  · split
    · exact .pure trivial
    · exact .andThen (.when fun _ => does_startThoughts hrecords) fun _ _ => .pure trivial

theorem holds_ambientTick (hs : Within config desk fields s) (hturn : isChat s.turn = false) :
    Attempt.Holds (fun s' => s' = s) (ambientTick config fields)
      (fun _ s' => Extends config desk (Belongs s.records) 0 s s')
      (Extends config desk (Belongs s.records) 0 s) := by
  refine .bind (Q := fun a s' => a = s ∧ s' = s) (.get fun s' h => ⟨h, h⟩) fun a => .assume ?_
  rintro rfl
  refine holds_of_does (V := fun _ => True) hs fun x hx hrecords hall => ?_
  have hxturn : isChat x.turn = false := hx ▸ hturn
  split
  · rename_i selected hselected
    refine does_finishAmbient hxturn ?_
    rw [hall]
    exact hs.1.known.ambient selected hselected
  · refine .andThen does_ask fun quiet _ => .ite (fun _ => .pure trivial) fun _ => ?_
    exact .andThen (does_startAmbient _ hrecords) fun _ _ => .pure trivial

/-- **The turn of a chat** keeps the invariant: the chat has left the
queue. -/
theorem keeps_chatTurn {chat : Chat} :
    Attempt.Holds (fun s => Within config desk fields s ∧ Popped s chat)
      (inTurn (.chat chat) (chatTurn config fields chat))
      (fun _ => Within config desk fields) (Within config desk fields) := by
  refine .pointwise fun s₀ ⟨hs₀, hpopped⟩ => ?_
  refine .bind (Q := fun _ s => s = { s₀ with turn := some (.chat chat) })
    (.modify fun s h => by rw [h]) fun _ => .pointwise fun s h => ?_
  have hs : Within config desk fields s := by
    rw [h]
    refine ⟨?_, hs₀.2⟩
    exact hs₀.1.congr rfl rfl (.refl _) rfl rfl rfl (fun _ h => h) fun _ h => h
  have hrest (s' : State) {companion : Dict} (hfound : companionForOwner config.unicode fields
      (field chat.fields "speaker") = some companion)
      (hext : Extends config desk (Replies chat companion) 1 s s') :
      Within config desk fields s' := by
    refine ⟨hs.1.extends_chat (by rw [h]) (by rw [h]; exact ⟨hpopped.1, hpopped.2, hpopped.3⟩)
      (hs.2 _ (mem_of_companionForOwner hfound)) (fun speaker hspeaker => ?_) hext,
      fun c hc => hext.records c (hs.2 c hc)⟩
    rw [hspeaker] at hfound
    exact (of_companionForOwner_str hfound).2
  have hmet : (⟨s.turn, s.records⟩ : Setting).Met s := ⟨rfl, fun _ hc => hc⟩
  cases hfound : companionForOwner config.unicode fields (field chat.fields "speaker") with
  | some companion =>
    have hdoes : Does config desk ⟨s.turn, s.records⟩ (Replies chat companion) 1
        (chatTurn config fields chat) (fun _ => True) := does_chatTurn hfound
    exact (hdoes s hmet).weaken (fun _ s' h => hrest s' hfound h.1) fun s' h => hrest s' hfound h
  | none =>
    -- A speaker without a companion gets no answer.
    unfold chatTurn
    rw [hfound]
    exact .pure fun s' h => h ▸ hs

theorem keeps_configureDriver (c : Dict) :
    Attempt.Keeps (Within config desk fields) (configureDriver c) := by
  refine .bind (.lift _) fun body => .bind (.modify fun s hs => ⟨?_, hs.2⟩) fun _ => .pure _
  exact hs.1.congr rfl rfl (.refl _) rfl rfl rfl (fun _ h => h) fun _ h => h

theorem keeps_flushScheduledSays :
    Attempt.Keeps (Within config desk fields) (inTurn .scheduled (flushScheduledSays config fields)) :=
  keeps_inTurn rfl fun _ hs hturn => holds_of_does (V := fun _ => True) hs
    fun _ hx hrecords _ => does_flushScheduledSays (hx ▸ hturn) hrecords

/-- An offline decision is about one of the companions. -/
theorem keeps_handleOffline {c : Dict} (hc : c ∈ companions fields) :
    Attempt.Keeps (Within config desk fields) (inTurn .offline (handleOffline config c)) :=
  keeps_inTurn rfl fun _ hs hturn => holds_of_does (V := fun _ => True) hs
    fun _ hx hrecords _ => does_handleOffline (hx ▸ hturn) (hrecords c hc)

theorem mem_of_offlineCandidates {l : List Dict} (h : offlineCandidates config fields = .ok l) :
    ∀ c ∈ l, c ∈ companions fields := by
  intro c hc
  unfold offlineCandidates at h
  split at h
  · exact List.mem_of_mem_filter (mem_of_filterM h c hc)
  · rw [← Except.ok.inj h] at hc
    cases hc

/-- **The turn of a pass without a chat** keeps the invariant. -/
theorem keeps_quietTurn :
    Attempt.Keeps (Within config desk fields) (quietTurn config fields) := by
  unfold quietTurn
  refine Attempt.Holds.bind (Q := fun l s => (∀ c ∈ l, c ∈ companions fields) ∧
    Within config desk fields s) (.lift (fun l s hl hs => ⟨mem_of_offlineCandidates hl, hs⟩)
      fun s hs => hs) fun candidates => .assume fun hcandidates => ?_
  refine .bind keeps_ask fun due => ?_
  split
  · rename_i companion hhead
    have hmem := hcandidates companion (mem_of_inOrder (List.mem_of_head? hhead))
    exact .bind (keeps_handleOffline hmem) fun _ => .pure fun _ h => h
  · have hthought : Attempt.Keeps (Within config desk fields)
        (inTurn .thought (thinkTick config fields)) :=
      keeps_inTurn rfl fun s hs hturn => holds_thinkTick hs hturn
    have hambient : Attempt.Keeps (Within config desk fields)
        (inTurn .ambient (ambientTick config fields)) :=
      keeps_inTurn rfl fun s hs hturn => holds_ambientTick hs hturn
    refine .bind hthought fun thought => .ite (fun _ => .pure fun _ h => h) fun _ => ?_
    refine .bind hambient fun ambient => .ite (fun _ => .pure fun _ h => h) fun _ => ?_
    split
    · exact .bind (keeps_configureDriver _) fun _ => .pure fun _ h => h
    · refine .modify fun s hs => ⟨?_, hs.2⟩
      exact hs.1.congr rfl rfl (.refl _) rfl rfl rfl (fun _ h => h) fun _ h => h

/-- A chat that leaves the queue has not been served. -/
theorem holds_popChat : Attempt.Holds (Within config desk fields) (Attempt.state popChat : Act _)
    (fun r s => Within config desk fields s ∧ ∀ chat, r = some chat → Popped s chat)
    (Within config desk fields) := by
  refine .state (fun s r hs hr => ?_)
    fun s e _ (he : Except.ok s.pendingChats.head? = .error e) => nomatch he
  obtain rfl := Except.ok.inj hr
  have hpopped : Within config desk fields { s with pendingChats := s.pendingChats.tail } :=
    ⟨hs.1.congr rfl rfl (List.tail_sublist _) rfl rfl rfl (fun _ h => h) fun _ h => h, hs.2⟩
  unfold popChat
  dsimp only
  cases hpending : s.pendingChats with
  | nil =>
    rw [hpending] at hpopped
    exact ⟨hpopped, nofun⟩
  | cons chat rest =>
    have hmem : chat ∈ s.pendingChats := hpending ▸ List.mem_cons_self
    have hnodup := hs.1.line.nodup
    rw [hpending] at hpopped hnodup
    refine ⟨hpopped, fun c hc => ?_⟩
    obtain rfl : chat = c := Option.some.inj hc
    refine ⟨hs.1.line.pending chat hmem, fun c hc heq => ?_, fun m c hm heq => ?_⟩
    · exact (List.nodup_cons.1 hnodup).1 (List.mem_map.2 ⟨c, hc, heq⟩)
    · exact (hs.1.served m c hm).2 chat hmem heq.symm

/-- **The turn of a pass** keeps the invariant. -/
theorem keeps_takeTurn : Attempt.Keeps (Within config desk fields) (takeTurn config fields) := by
  unfold takeTurn
  refine .bind keeps_flushScheduledSays fun _ => Attempt.Holds.bind holds_popChat fun r => ?_
  cases r with
  | some chat =>
    refine Attempt.Holds.bind (keeps_chatTurn.mono (fun s hs => ?_) (fun _ _ h => h) fun _ h => h)
      fun _ => keeps_ask
    exact ⟨hs.1, hs.2 chat rfl⟩
  | none => exact keeps_quietTurn.mono (fun _ h => h.1) (fun _ _ h => h) fun _ h => h

/-! ## Runs -/

/-- Between turns, what is polled keeps the invariant. -/
theorem keeps_pollEvents : Attempt.Keeps (fun s => Inv config desk s ∧ s.turn = none)
    (pollEvents config) := by
  refine .pointwise fun s hs => ?_
  have hdoes : Does config desk ⟨none, s.records⟩ (Belongs s.records) 0 (pollEvents config)
      fun _ => True := does_pollEvents
  have hkeep (s' : State) (h : Extends config desk (Belongs s.records) 0 s s') :
      Inv config desk s' ∧ s'.turn = none := by
    refine ⟨hs.1.extends ?_ h, h.turn.trans hs.2⟩
    rw [hs.2]
    rfl
  exact (hdoes s ⟨hs.2, fun _ hc => hc⟩).weaken (fun _ s' h => hkeep s' h.1) hkeep

/-- **A pass** keeps the invariant. -/
theorem holds_runOnce : Attempt.Holds (fun s => Inv config desk s ∧ s.turn = none) (runOnce config)
    (fun _ => Inv config desk) (Inv config desk) := by
  have hask {α : Type} {f : Answer → α} : Attempt.Holds (fun s => Inv config desk s ∧ s.turn = none)
      (ask f) (fun _ s => Inv config desk s ∧ s.turn = none) (Inv config desk) :=
    keeps_ask.weaken (fun _ _ h => h) fun _ h => h.1
  unfold runOnce
  refine .bind hask fun _ => .ite (fun _ => .pure fun _ h => h.1) fun _ => .bind hask fun _ => ?_
  refine .bind (keeps_pollEvents.weaken (fun _ _ h => h) fun _ h => h.1) fun _ => ?_
  refine .bind (Q := fun _ s => Inv config desk s ∧ s.turn = none) (.get fun _ h => h) fun s =>
    .ite (fun _ => .pure fun _ h => h.1) fun _ => ?_
  -- What was read is among the records.
  have hread : Attempt.Holds (fun s => Inv config desk s ∧ s.turn = none) readState
      (fun r s => Inv config desk s ∧
        ∀ message, r = some message → ∀ c ∈ companions message.2, c ∈ s.records)
      (Inv config desk) := by
    unfold readState
    refine .bind hask fun message => ?_
    cases message with
    | none => exact .pure fun s h => ⟨h.1, nofun⟩
    | some message =>
      refine .bind (Q := fun _ s => Inv config desk s ∧ ∀ c ∈ companions message.2, c ∈ s.records)
        (.modify fun s h => ⟨?_, fun c hc => List.mem_append_left _ hc⟩) fun _ => .pure ?_
      · refine h.1.extends (k := 0) (by rw [h.2]; rfl) ?_
        have hrecords : ∀ c ∈ s.records, c ∈ companions message.2 ++ s.records :=
          fun c hc => List.mem_append_right _ hc
        exact .of_eq rfl hrecords (fun hk => hk.mono hrecords (fun _ h => h) fun _ h => h) rfl rfl
          rfl rfl rfl
      · rintro s ⟨hs, hall⟩
        refine ⟨hs, fun m hm => ?_⟩
        rw [← Option.some.inj hm]
        exact hall
  refine .bind hread fun r => ?_
  cases r with
  | none => exact .pure fun _ h => h.1
  | some message =>
    refine .ite (fun _ => .pure fun _ h => h.1) fun _ => ?_
    refine .bind (Q := fun _ => Within config desk message.2) ?_ fun _ => ?_
    · exact keeps_ask.mono (fun s h => ⟨h.1, h.2 message rfl⟩) (fun _ _ h => h) fun _ h => h.1
    · exact keeps_takeTurn.weaken (fun _ _ h => h.1) fun _ h => h.1

/-- A specification holds of the state an attempt leaves. -/
theorem inv_of_holds {m : Act Unit} (h : Attempt.Holds (fun s => Inv config desk s ∧ s.turn = none) m
    (fun _ => Inv config desk) (Inv config desk)) (hs : Inv config desk s) (ts : Turns Answer) :
    Inv config desk (m.run { s with turn := none } ts).2 := by
  have hidle : Inv config desk { s with turn := none } :=
    hs.congr rfl rfl (.refl _) rfl rfl rfl (fun _ h => h) fun _ h => h
  have hrun := h { s with turn := none } ts ⟨hidle, rfl⟩
  generalize m.run { s with turn := none } ts = r at hrun ⊢
  obtain ⟨_ | ⟨_ | _, _⟩, _⟩ := r
  · exact hrun
  · exact hrun
  · exact hrun

/-- The ledger is loaded anew; everything that was pending is forgotten. -/
theorem Inv.fresh (h : Inv config desk s) : Inv config desk (s.fresh config) := by
  refine ⟨⟨nofun, nofun⟩, ⟨h.line.ticket, nofun, List.nodup_nil, h.line.keys, ?_, h.line.direct⟩,
    h.belongs, fun m chat hm => h.spoken m chat hm, fun m chat hm => ⟨(h.served m chat hm).1, nofun⟩, h.orders,
    h.direct⟩
  show _ = Machine.run _ desk (s.polls ++ [.reload])
  rw [Machine.run_snoc, ← h.line.desk]
  rfl

/-- **Every step** keeps the invariant. -/
theorem inv_step (op : Op) (h : Inv config desk s) : Inv config desk (step config s op) := by
  cases op with
  | runOnce turns => exact inv_of_holds holds_runOnce h turns
  | idle turns =>
    refine inv_of_holds (.bind (keeps_pollEvents.weaken (fun _ _ h => h) fun _ h => h.1) fun _ => ?_)
      h turns
    exact keeps_ask.weaken (fun _ _ h => h.1) fun _ h => h.1
  | control paused =>
    exact h.congr rfl rfl (.refl _) rfl rfl rfl (fun _ h => h) fun _ h => h
  | restart => exact h.fresh

theorem inv_start (window : ℤ) : Inv config desk (start config desk window) :=
  ⟨⟨nofun, nofun⟩, ⟨nofun, nofun, List.nodup_nil, List.nil_subperm, rfl, nofun⟩, nofun, nofun,
    nofun, fun _ => Nat.zero_le _, nofun⟩

/-- **Every run** keeps the invariant. -/
theorem inv_run (config : Config) (desk : Ipc.Desk) (window : ℤ) (ops : List Op) :
    Inv config desk (Machine.run (step config) (start config desk window) ops) :=
  Machine.invariant (fun _ op h => inv_step op h) (inv_start window) ops

end Service

end GoblinZomboid
