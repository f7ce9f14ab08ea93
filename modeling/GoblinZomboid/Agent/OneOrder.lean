import GoblinZomboid.Agent.Speaker
/-!
# One chat, at most one order

A chat is answered in one turn, which gives at most one order, and none
where the game has taken the order already. Where the ledger of the event
consumer has room, a chat file that comes back is not accepted again, so
the same holds for each message.
-/

namespace GoblinZomboid

namespace Service

open Protocol (Dict Message)

/-- An order that was published for the message with this id and time. -/
def isOrderFor (key : PyText × ℤ) : Message × Option Turn → Bool
  | (m, some (.chat chat)) => chat.key = key && isOrder m
  | _ => false

variable {config : Config} {desk : Ipc.Desk} {s : State}

/-- Among chats that were queued under different keys, those of one key are
one. -/
theorem countP_isOrderFor_le (h : Inv config desk s) (hnodup : (s.queued.map (·.key)).Nodup)
    (key : PyText × ℤ) : s.published.countP (isOrderFor key) ≤ 1 := by
  by_cases hqueued : ∃ c ∈ s.queued, c.key = key
  · obtain ⟨c, hc, hkey⟩ := hqueued
    refine le_trans (List.countP_mono_left ?_) (h.orders c.ticket)
    rintro ⟨m, turn⟩ hm horder
    unfold isOrderFor at horder
    split at horder
    · rename_i m' chat heq
      obtain ⟨rfl, rfl⟩ := Prod.mk.inj heq
      obtain ⟨hsame, horder⟩ := Bool.and_eq_true_iff.1 horder
      have hchat : chat = c := List.inj_on_of_nodup_map hnodup (h.served m chat hm).1 hc
        ((of_decide_eq_true hsame).trans hkey.symm)
      show (decide (chat.ticket = c.ticket) && isOrder m) = true
      rw [hchat, horder, decide_eq_true rfl, Bool.and_self]
    · exact absurd horder Bool.false_ne_true
  · -- No chat of this key was queued, and only those have turns.
    rw [List.countP_eq_zero.2 ?_]
    · exact Nat.zero_le _
    rintro ⟨m, turn⟩ hm horder
    unfold isOrderFor at horder
    split at horder
    · rename_i m' chat heq
      obtain ⟨rfl, rfl⟩ := Prod.mk.inj heq
      obtain ⟨hsame, -⟩ := Bool.and_eq_true_iff.1 horder
      exact hqueued ⟨chat, (h.served m chat hm).1, of_decide_eq_true hsame⟩
    · exact absurd horder Bool.false_ne_true

/-- **One chat, at most one order.** Whatever is polled between and during the
turns, whichever call fails or stops the service, and however often it starts
anew: a chat that was accepted leads to at most one command that is no remark,
and to none where it carries a direct action. While the ledger has room, this
holds for all chats of one id and time together. -/
theorem at_most_one_order (config : Config) (desk : Ipc.Desk) (window : ℤ) (ops : List Op) :
    let s := Machine.run (step config) (start config desk window) ops
    (∀ chat ∈ s.queued, s.published.countP (isOrderOf chat.ticket) ≤ 1) ∧
    (∀ m chat, (m, some (.chat chat)) ∈ s.published → chat ∈ s.queued ∧
      (isOrder m = true → Protocol.get chat.fields "direct_action" = none)) ∧
    (Ipc.Opened config.bounds desk → Machine.Meets (Ipc.step (.event []) config.bounds)
        (Ipc.Roomy (.event []) config.bounds) desk s.polls →
      ∀ key, s.published.countP (isOrderFor key) ≤ 1) := by
  intro s
  have hinv : Inv config desk s := inv_run config desk window ops
  refine ⟨fun chat _ => hinv.orders chat.ticket, fun m chat hm => ?_, fun hopened hroomy => ?_⟩
  · refine ⟨(hinv.served m chat hm).1, fun horder => ?_⟩
    -- A direct action is named by a text, and such a chat leads to no order.
    by_contra hne
    obtain ⟨v, hv⟩ := Option.ne_none_iff_exists'.1 hne
    obtain ⟨t, rfl⟩ := hinv.line.direct chat (hinv.served m chat hm).1 v hv
    have hnone := hinv.direct m chat hm horder
    unfold field at hnone
    rw [hv] at hnone
    cases hnone
  · have honce : s.desk.returned.Nodup := by
      rw [hinv.line.desk]
      have hstep (d : Ipc.Desk) (move : Ipc.Step) (hd : Ipc.Inv config.bounds d d.returned)
          (hr : Ipc.Roomy (.event []) config.bounds d move) := Ipc.inv_step hd hr
      exact (Machine.invariant_of_meets hstep hopened.inv hroomy).once
    obtain ⟨l, hperm, hsub⟩ := hinv.line.keys
    exact countP_isOrderFor_le hinv (hperm.nodup_iff.1 (hsub.nodup honce))

/-- A chat that asks for something. -/
def askingChat : Ipc.Item where
  reading := .value (.dict [(PyText.lit "protocol", .int 2),
    (PyText.lit "request_id", .str (PyText.lit "chat-1")), (PyText.lit "timestamp_ms", .int 1),
    (PyText.lit "type", .str (PyText.lit "event.chat")),
    (PyText.lit "speaker", .str (PyText.lit "ann")),
    (PyText.lit "text", .str (PyText.lit "goblin, come with me"))])
  write := .ok

/-- A service with a model that answers chats. -/
def modelConfig : Config :=
  ⟨.ascii, true, false, some ⟨true, false, false, false, false, false⟩, 1, ⟨4, 120000⟩⟩

/-- The chat is answered, and its file is there again after a restart. -/
def askedTwice : List Op :=
  let turns := steady askingChat [readyRecord "npc.a" "ann"]
  [.runOnce turns, .restart, .runOnce turns]

instance {c : Ipc.Consumer} {b : Ipc.Bounds} (d : Ipc.Desk) :
    (move : Ipc.Step) → Decidable (Ipc.Roomy c b d move)
  | .poll _ _ _ => inferInstanceAs (Decidable (_ ∧ _))
  | .reload => inferInstanceAs (Decidable True)

/-- A remark and an order come of it, and no second order. -/
theorem at_most_one_order_askedTwice :
    let s := Machine.run (step modelConfig) (start modelConfig ⟨[], none, 0, [], []⟩ 10) askedTwice
    s.published.map (fun e => isOrder e.1) = [true, false] ∧
      ∀ key, s.published.countP (isOrderFor key) ≤ 1 := by
  refine ⟨by decide +kernel, ?_⟩
  refine (at_most_one_order modelConfig ⟨[], none, 0, [], []⟩ 10 askedTwice).2.2 ?_ ?_
  · exact ⟨rfl, rfl, nofun⟩
  · decide +kernel

end Service

end GoblinZomboid
