import GoblinZomboid.Lib.Run
import GoblinZomboid.Server.Defense
/-!
# No shot without aim

A shot is fired at a zombie only in a tick that finds everything right: the
target lives, is none of ours, stands in a clear line within range, and for
the automatic defense on the owner's floor within the radius. And it was
aimed first: some earlier tick took aim at the same target, the windup has
passed since, and every tick in between found everything right too, or left
combat alone.
-/

namespace GoblinZomboid

namespace Defense

variable {sc : Scene} {s : State} {z w : ℕ} {f : ℤ}

/-! ## What a target has to be -/

/-- A clear line to the target, within the range of the shotgun. -/
def InSight (sc : Scene) (z : ℕ) : Prop :=
  ∃ actor victim, sc.position = some actor ∧ (sc.look z).position = some victim ∧
    sc.lineClear (tile actor) (tile victim) = some true ∧
    distanceSquared actor victim ≤ shotgunRange * shotgunRange

/-- The owner is online and on foot, and the target is on the owner's floor
within the radius. -/
def NearOwner (sc : Scene) (z : ℕ) : Prop :=
  ∃ p ∈ sc.players, p.username.lower = sc.body.owner.lower ∧ p.inVehicle = false ∧
    ∃ o v, p.position = some o ∧ (sc.look z).position = some v ∧ ⌊v.z⌋ = ⌊o.z⌋ ∧
      distanceSquared v o ≤ ownerDefenseRadius * ownerDefenseRadius

/-- **Everything is right** for a shot at the target. -/
structure Right (sc : Scene) (z : ℕ) : Prop where
  ours : sc.body.isGoblin = true
  afoot : sc.aboard = false
  asked : sc.automatic = true ∨ sc.task = .attack
  alive : (sc.look z).isAlive = true
  leash : sc.automatic = true → NearOwner sc z
  sight : InSight sc z

/-- An aim is taken at the target that is good from a time on. -/
def Armed (s : State) (z : ℕ) (f : ℤ) : Prop :=
  ∃ e, s.engagement = some e ∧ e.target = z ∧ e.fireAt = some f

/-- The tick takes aim at the target, and tells the clients. -/
def Aims (s : State) (sc : Scene) (z : ℕ) : Prop :=
  ∃ n x y, Act.aim z n x y ∈ (update s sc).acts

/-- The tick fires at the target. -/
def Fires (s : State) (sc : Scene) (z : ℕ) : Prop := Act.hit z ∈ (update s sc).acts

/-- The tick stands by the aim: everything is right and it fires at nobody, or it leaves combat
alone. -/
def StandsBy (z : ℕ) (s : State) (sc : Scene) : Prop :=
  Right sc z ∧ (∀ w, ¬Fires s sc w) ∨ (update s sc).acts = [.passOn]

/-! ## Choosing -/

theorem distanceSquared_comm (a b : Point) : distanceSquared a b = distanceSquared b a := by
  unfold distanceSquared
  ring

/-- What the loop has found so far is a threat no farther than the bound. -/
theorem nearer_spec {origin : Point} {bound : ℚ} {zs : List ℕ} {best : Option ℕ × ℚ}
    (hle : best.2 ≤ bound)
    (hbest : ∀ z, best.1 = some z → sc.isThreat origin z = true ∧
      ∃ p, (sc.look z).position = some p ∧ distanceSquared origin p ≤ bound) :
    ∀ z, (zs.foldl (sc.nearer origin) best).1 = some z → sc.isThreat origin z = true ∧
      ∃ p, (sc.look z).position = some p ∧ distanceSquared origin p ≤ bound := by
  induction zs generalizing best with
  | nil => exact hbest
  | cons y zs ih =>
    rw [List.foldl_cons]
    unfold Scene.nearer
    cases hpos : (sc.look y).position with
    | none => exact ih hle hbest
    | some p =>
      dsimp only
      split_ifs with hnear
      · rw [Bool.and_eq_true, decide_eq_true_eq] at hnear
        refine ih (hnear.2.trans hle) fun z hz => ?_
        obtain rfl := Option.some_inj.1 hz
        exact ⟨hnear.1, p, hpos, hnear.2.trans hle⟩
      · exact ih hle hbest

/-- **The nearest threat** lives and is on the floor, within the radius. -/
theorem nearestThreat_spec {origin : Option Point} {radius : ℚ}
    (h : sc.nearestThreat origin radius = some z) :
    ∃ o p, origin = some o ∧ (sc.look z).isAlive = true ∧ (sc.look z).position = some p ∧
      ⌊p.z⌋ = ⌊o.z⌋ ∧ distanceSquared p o ≤ radius * radius := by
  unfold Scene.nearestThreat at h
  cases origin with
  | none => cases h
  | some o =>
    obtain ⟨hthreat, p, hpos, hle⟩ := nearer_spec le_rfl (by simp) z h
    unfold Scene.isThreat at hthreat
    rw [hpos] at hthreat
    simp only [Bool.and_eq_true, Option.any_some, decide_eq_true_eq] at hthreat
    exact ⟨o, p, rfl, hthreat.1.2, hpos, hthreat.2, by rwa [distanceSquared_comm]⟩

/-- The target of a tick lives, and is within the radius of the automatic
defense. -/
theorem target_spec {origin : Option Point} {radius : ℚ}
    (h : sc.target s origin radius = some z) :
    (sc.look z).isAlive = true ∧ (sc.automatic = true →
      ∃ o p, origin = some o ∧ (sc.look z).position = some p ∧ ⌊p.z⌋ = ⌊o.z⌋ ∧
        distanceSquared p o ≤ radius * radius) := by
  have hnearest (h : sc.nearestThreat origin radius = some z) : (sc.look z).isAlive = true ∧
      (sc.automatic = true → ∃ o p, origin = some o ∧ (sc.look z).position = some p ∧
        ⌊p.z⌋ = ⌊o.z⌋ ∧ distanceSquared p o ≤ radius * radius) := by
    obtain ⟨o, p, ho, halive, hp, hfloor, hle⟩ := nearestThreat_spec h
    exact ⟨halive, fun _ => ⟨o, p, ho, hp, hfloor, hle⟩⟩
  unfold Scene.target at h
  cases he : s.engagement with
  | none =>
    rw [he] at h
    exact hnearest h
  | some e =>
    rw [he] at h
    dsimp only at h
    split_ifs at h with hkeeps
    · obtain rfl := Option.some_inj.1 h
      unfold Scene.keeps at hkeeps
      rw [Bool.and_eq_true] at hkeeps
      refine ⟨hkeeps.1, fun hauto => ?_⟩
      have hnear := hkeeps.2
      rw [hauto, Bool.not_true, Bool.false_or] at hnear
      cases origin with
      | none => cases hnear
      | some o =>
        cases hp : (sc.look e.target).position with
        | none =>
          rw [hp] at hnear
          cases hnear
        | some p =>
          rw [hp] at hnear
          simp only [Bool.and_eq_true, decide_eq_true_eq] at hnear
          exact ⟨o, p, rfl, rfl, hnear.1, hnear.2⟩
    · exact hnearest h

/-! ## Engaging -/

@[simp] theorem engagementOf_target : (engagementOf sc s z).target = z := by
  unfold engagementOf
  split
  · rfl
  · split
    · assumption
    · rfl

/-- A new engagement has no aim. -/
theorem armed_of_engagementOf (h : (engagementOf sc s z).fireAt = some f) : Armed s z f := by
  unfold engagementOf at h
  split at h
  · cases h
  · rename_i e he
    split at h
    · rename_i hz
      exact ⟨e, he, hz, h⟩
    · cases h

/-- What `engage` does: it fires only when the aim taken at its target is
good, and only it renews an aim. -/
structure Engaged (sc : Scene) (s : State) (z : ℕ) (r : Engaging) : Prop where
  fires : ∀ w, Act.hit w ∈ r.acts → w = z ∧ InSight sc z ∧ ∃ f, f ≤ sc.now ∧ Armed s z f
  aims : ∀ w n x y, Act.aim w n x y ∈ r.acts → w = z ∧ InSight sc z
  armed : ∀ w f, r.engaged = true → Armed r.state w f → w = z ∧ InSight sc z ∧
    ((f = sc.now + shotWindupMs ∧ ∃ n x y, Act.aim z n x y ∈ r.acts) ∨
      (Armed s z f ∧ ∀ w, Act.hit w ∉ r.acts))
  once : ∀ v w n x y, Act.aim v n x y ∈ r.acts → Act.hit w ∉ r.acts

theorem engaged_pursue {e : Engagement} {victim : Point} {gap2 : ℚ} {blocked chase : Bool} :
    Engaged sc s z (pursue sc s e victim gap2 blocked chase) := by
  have hdisarmed {e : Engagement} (he : e.fireAt = none) (w : ℕ) (f : ℤ) :
      ¬Armed { s with engagement := some e } w f := by
    rintro ⟨e', he', -, hf⟩
    obtain rfl := Option.some_inj.1 he'
    rw [he] at hf
    cases hf
  unfold pursue
  dsimp only
  split
  · exact ⟨by simp, by simp, by simp, by simp⟩
  split
  · exact ⟨by simp, by simp, by simp, by simp⟩
  split <;> exact ⟨by simp, by simp, fun w f _ h => absurd h (hdisarmed rfl w f), by simp⟩

/-- Firing leaves no aim. -/
theorem engaged_fire {e : Engagement} (hsight : InSight sc z) (harmed : Armed s z f)
    (hf : f ≤ sc.now) {s' : State} {before : List Act}
    (hbefore : ∀ a ∈ before, a = .stop ∨ a = .ready .idle ∨ a = .equip ∨ a = .face z) :
    Engaged sc s z { fire sc s' e z with acts := before ++ (fire sc s' e z).acts } := by
  have hplain (a : Act) (h : a ∈ before) : (∀ w, a ≠ .hit w) ∧
      ∀ w n x y, a ≠ .aim w n x y := by
    rcases hbefore a h with rfl | rfl | rfl | rfl <;> simp
  have hacts : (fire sc s' e z).acts = [.refill, .attacking, .hit z, .refill, .pose false] := by
    unfold fire
    dsimp only
    split
    · rfl
    split <;> rfl
  have hdisarmed (w : ℕ) (g : ℤ) : ¬Armed (fire sc s' e z).state w g := by
    have hnone : ∃ e', (fire sc s' e z).state.engagement = some e' ∧ e'.fireAt = none := by
      unfold fire
      dsimp only
      split
      · exact ⟨_, rfl, rfl⟩
      split <;> exact ⟨_, rfl, rfl⟩
    obtain ⟨e', he', hnone⟩ := hnone
    rintro ⟨e'', he'', -, hf⟩
    obtain rfl := Option.some_inj.1 (he'.symm.trans he'')
    rw [hnone] at hf
    cases hf
  have hnoaim (w n : ℕ) (x y : ℚ) : Act.aim w n x y ∉ before ++ (fire sc s' e z).acts := by
    intro h
    rw [hacts, List.mem_append] at h
    rcases h with h | h
    · exact (hplain _ h).2 w n x y rfl
    · simp at h
  refine ⟨fun w h => ?_, fun w n x y h => absurd h (hnoaim w n x y),
    fun w g _ h => absurd h (hdisarmed w g), fun v w n x y h => absurd h (hnoaim v n x y)⟩
  dsimp only at h
  rw [hacts, List.mem_append] at h
  rcases h with h | h
  · exact absurd rfl ((hplain _ h).1 w)
  · obtain rfl : w = z := by simpa using h
    exact ⟨rfl, hsight, f, hf, harmed⟩

theorem engaged_shoot {victim : Point} (hsight : InSight sc z) :
    Engaged sc s z (shoot sc { s with engagement := some (engagementOf sc s z) }
      (engagementOf sc s z) z victim) := by
  unfold shoot
  dsimp only
  cases ensureWeapon sc with
  | error detail => exact ⟨by simp, by simp, by simp, by simp⟩
  | ok x =>
    dsimp only
    cases hfire : (engagementOf sc s z).fireAt with
    | none =>
      dsimp only
      split
      · refine ⟨by simp, by simp, ?_, by simp⟩
        rintro w f - ⟨e, he, -, hf⟩
        obtain rfl := Option.some_inj.1 he
        cases hf
      · refine ⟨by simp, ?_, ?_, by simp⟩
        · intro w n x y h
          obtain ⟨rfl, -⟩ : w = z ∧ _ := by simpa using h
          exact ⟨rfl, hsight⟩
        · rintro w f - ⟨e, he, hw, hf⟩
          obtain rfl := Option.some_inj.1 he
          obtain rfl : z = w := by rw [← hw]; exact engagementOf_target.symm
          obtain rfl := Option.some_inj.1 hf
          refine ⟨rfl, hsight, .inl ⟨rfl, s.actionSequence + 1, victim.x, victim.y, ?_⟩⟩
          simp
    | some f =>
      have harmed := armed_of_engagementOf hfire
      dsimp only
      split
      · refine ⟨by simp, by simp, ?_, by simp⟩
        rintro w g - ⟨e, he, hw, hg⟩
        obtain rfl := Option.some_inj.1 he
        obtain rfl : z = w := by rw [← hw]; exact engagementOf_target.symm
        obtain rfl := Option.some_inj.1 hg
        exact ⟨rfl, hsight, .inr ⟨harmed, by simp⟩⟩
      · rename_i hlate
        exact engaged_fire hsight harmed (by omega) (by simp)

/-- **Engaging** fires a good aim only, and only in sight. -/
theorem engaged_engage {chase : Bool} : Engaged sc s z (engage sc s z chase) := by
  unfold engage
  dsimp only
  split
  · rename_i actor victim hactor hvictim
    split
    · exact ⟨by simp, by simp, by simp, by simp⟩
    · rename_i clear hclear
      split
      · exact engaged_pursue
      · rename_i hfree
        rw [Bool.or_eq_true, Bool.not_eq_true', decide_eq_true_eq, not_or, not_lt,
          Bool.not_eq_false] at hfree
        refine engaged_shoot ⟨actor, victim, hactor, hvictim, ?_, hfree.2⟩
        rw [hclear, hfree.1]
  · exact ⟨by simp, by simp, by simp, by simp⟩

/-! ## One tick -/

/-- Taking aim, or firing. -/
def Act.isShot : Act → Bool
  | .aim .. | .hit _ => true
  | _ => false

/-- The target of a tick: everything is right but the sight. -/
structure Chosen (sc : Scene) (z : ℕ) : Prop where
  ours : sc.body.isGoblin = true
  afoot : sc.aboard = false
  asked : sc.automatic = true ∨ sc.task = .attack
  alive : (sc.look z).isAlive = true
  leash : sc.automatic = true → NearOwner sc z

theorem Chosen.right (h : Chosen sc z) (hsight : InSight sc z) : Right sc z :=
  ⟨h.ours, h.afoot, h.asked, h.alive, h.leash, hsight⟩

/-- A tick that engages a target, with what it does before and after. -/
structure Fought (sc : Scene) (s : State) (t : Turn) (z : ℕ) (r : Engaging)
    (before after : List Act) : Prop where
  chosen : Chosen sc z
  engaged : Engaged sc s z r
  acts : t.acts = before ++ r.acts ++ after
  before : ∀ a ∈ before, a.isShot = false
  after : ∀ a ∈ after, a.isShot = false
  state : t.state.engagement = none ∨ t.state = r.state ∧ r.engaged = true

theorem standDown_spec (sc : Scene) (s : State) (acts : List Act) :
    (standDown sc s acts).state.engagement = none ∧
      ∃ after, (standDown sc s acts).acts = acts ++ after ∧ ∀ a ∈ after, a.isShot = false := by
  unfold standDown
  split
  · exact ⟨rfl, _, rfl, by simp [Act.isShot]⟩
  · exact ⟨rfl, _, rfl, by simp [Act.isShot]⟩

/-- What a tick of combat does: it engages its target, or has none and takes no shot. -/
theorem fight_spec {acts : List Act} {origin : Option Point} {radius : ℚ}
    (hacts : ∀ a ∈ acts, a.isShot = false)
    (hchosen : ∀ z, sc.target s origin radius = some z → Chosen sc z) :
    ((fight sc s acts origin radius).state.engagement = none ∧
        ∀ a ∈ (fight sc s acts origin radius).acts, a.isShot = false) ∨
      ∃ z r before after, Fought sc s (fight sc s acts origin radius) z r before after := by
  unfold fight
  cases htarget : sc.target s origin radius with
  | none =>
    left
    obtain ⟨hnone, after, heq, hafter⟩ := standDown_spec sc s acts
    refine ⟨hnone, fun a ha => ?_⟩
    rw [heq] at ha
    exact (List.mem_append.1 ha).elim (hacts a) (hafter a)
  | some z =>
    right
    have hz := hchosen z htarget
    dsimp only
    split
    · rename_i hengaged
      exact ⟨z, _, acts, [], hz, engaged_engage, by simp, hacts, by simp, .inr ⟨rfl, hengaged⟩⟩
    split
    · exact ⟨z, _, acts, _, hz, engaged_engage, rfl, hacts, by simp [Act.isShot], .inl rfl⟩
    · obtain ⟨hnone, after, heq, hafter⟩ := standDown_spec sc
        (engage sc s z (sc.task = .attack)).state
        (acts ++ (engage sc s z (sc.task = .attack)).acts)
      exact ⟨z, _, acts, after, hz, engaged_engage, heq, hacts, hafter, .inl hnone⟩

/-- The owner the automatic defense is centred on. -/
theorem nearOwner_of_owner {o : Point} (howner : sc.owner = .onFoot o) {v : Point}
    (hv : (sc.look z).position = some v) (hfloor : ⌊v.z⌋ = ⌊o.z⌋)
    (hle : distanceSquared v o ≤ ownerDefenseRadius * ownerDefenseRadius) : NearOwner sc z := by
  unfold Scene.owner at howner
  split at howner
  · cases howner
  · rename_i p hfind
    split at howner
    · cases howner
    · rename_i hfoot
      cases hpos : p.position with
      | none =>
        rw [hpos] at howner
        cases howner
      | some o' =>
        rw [hpos] at howner
        cases howner
        exact ⟨p, List.mem_of_find?_eq_some hfind, by simpa using List.find?_some hfind,
          by simpa using hfoot, o, v, hpos, hv, hfloor, hle⟩

/-- **What a tick does.** It leaves combat alone, or forgets the engagement,
or fights. -/
theorem update_spec (s : State) (sc : Scene) :
    update s sc = ⟨s, [.passOn], none⟩ ∨
      ((update s sc).state.engagement = none ∧ ∀ a ∈ (update s sc).acts, a.isShot = false) ∨
      ∃ z s' r before after, (s' = s ∨ s'.engagement = none) ∧
        Fought sc s' (update s sc) z r before after := by
  unfold update
  by_cases hours : sc.body.isGoblin = true
  case neg =>
    rw [Bool.not_eq_true] at hours
    rw [hours]
    exact .inl rfl
  rw [hours, Bool.not_true, if_neg Bool.false_ne_true]
  obtain ⟨s', acts, hdrop, hsame, hacts, hkept⟩ : ∃ s' acts, dropOld sc s = (s', acts) ∧
      (s' = s ∨ s'.engagement = none) ∧ (∀ a ∈ acts, a.isShot = false) ∧
      (s' = s ∧ acts = [] ∨ s'.engagement = none) := by
    unfold dropOld
    split
    · exact ⟨_, _, rfl, .inr rfl, by simp [Act.isShot], .inr rfl⟩
    · exact ⟨_, _, rfl, .inl rfl, by simp, .inl ⟨rfl, rfl⟩⟩
  rw [hdrop]
  dsimp only
  have hforgot {after : List Act} (hafter : ∀ a ∈ after, a.isShot = false) :
      ∀ a ∈ acts ++ after, a.isShot = false := fun a ha =>
    (List.mem_append.1 ha).elim (hacts a) (hafter a)
  have hpassed : (⟨s', acts ++ [.passOn], none⟩ : Turn) = ⟨s, [.passOn], none⟩ ∨
      s'.engagement = none ∧ ∀ a ∈ acts ++ [.passOn], a.isShot = false := by
    rcases hkept with ⟨rfl, rfl⟩ | hnone
    · exact .inl rfl
    · exact .inr ⟨hnone, hforgot (by simp [Act.isShot])⟩
  split
  · exact .inr (.inl ⟨rfl, hforgot (by simp [Act.isShot])⟩)
  rename_i hafoot
  rw [Bool.not_eq_true] at hafoot
  split
  · rename_i hauto
    split
    · exact hpassed.imp_right .inl
    · exact .inr (.inl ⟨rfl, hforgot (by simp [Act.isShot])⟩)
    · rename_i o howner
      right
      refine (fight_spec hacts fun z hz => ?_).imp_right fun ⟨z, r, before, after, h⟩ =>
        ⟨z, s', r, before, after, hsame, h⟩
      obtain ⟨halive, hnear⟩ := target_spec hz
      refine ⟨hours, hafoot, .inl hauto, halive, fun _ => ?_⟩
      obtain ⟨o', v, ho, hv, hfloor, hle⟩ := hnear hauto
      obtain rfl := Option.some_inj.1 ho
      exact nearOwner_of_owner howner hv hfloor hle
  · rename_i hauto
    split
    · rename_i hattack
      right
      refine (fight_spec hacts fun z hz => ?_).imp_right fun ⟨z, r, before, after, h⟩ =>
        ⟨z, s', r, before, after, hsame, h⟩
      exact ⟨hours, hafoot, .inr hattack, (target_spec hz).1, fun h => absurd h hauto⟩
    · exact hpassed.imp_right .inl

theorem not_armed_of_none (h : s.engagement = none) : ¬Armed s z f := by
  rintro ⟨e, he, -⟩
  rw [h] at he
  cases he

/-- The shots of a tick that fights are those of its engagement. -/
theorem Fought.mem {t : Turn} {r : Engaging} {before after : List Act}
    (h : Fought sc s t z r before after) {a : Act} (ha : a.isShot = true) :
    a ∈ t.acts ↔ a ∈ r.acts := by
  have hnot {l : List Act} (hl : ∀ a ∈ l, a.isShot = false) : a ∉ l := fun hmem => by
    rw [hl a hmem] at ha
    cases ha
  rw [h.acts, List.mem_append, List.mem_append]
  constructor
  · rintro ((hmem | hmem) | hmem)
    · exact absurd hmem (hnot h.before)
    · exact hmem
    · exact absurd hmem (hnot h.after)
  · exact fun hmem => .inl (.inr hmem)

/-- **A tick that fires** has an aim that is good, and everything is right. -/
theorem armed_of_fires (h : Fires s sc z) : Right sc z ∧ ∃ f, f ≤ sc.now ∧ Armed s z f := by
  unfold Fires at h
  rcases update_spec s sc with hpass | ⟨-, hquiet⟩ | ⟨y, s', r, before, after, hsame, hfought⟩
  · rw [hpass] at h
    simp at h
  · cases hquiet _ h
  · rw [hfought.mem rfl] at h
    obtain ⟨rfl, hsight, f, hf, harmed⟩ := hfought.engaged.fires z h
    refine ⟨hfought.chosen.right hsight, f, hf, ?_⟩
    rcases hsame with rfl | hnone
    · exact harmed
    · exact absurd harmed (not_armed_of_none hnone)

/-- **A tick that aims** finds everything right. -/
theorem right_of_aims (h : Aims s sc z) : Right sc z := by
  obtain ⟨n, x, y, h⟩ := h
  rcases update_spec s sc with hpass | ⟨-, hquiet⟩ | ⟨w, s', r, before, after, -, hfought⟩
  · rw [hpass] at h
    simp at h
  · cases hquiet _ h
  · rw [hfought.mem rfl] at h
    obtain ⟨rfl, hsight⟩ := hfought.engaged.aims z n x y h
    exact hfought.chosen.right hsight

/-- **One step.** An aim was taken just now, or stood by. -/
theorem armed_step (h : Armed (step s sc) z f) :
    (Aims s sc z ∧ f = sc.now + shotWindupMs) ∨ Armed s z f ∧ StandsBy z s sc := by
  unfold step at h
  rcases update_spec s sc with hpass | ⟨hnone, -⟩ | ⟨w, s', r, before, after, hsame, hfought⟩
  · rw [hpass] at h
    exact .inr ⟨h, .inr (by rw [hpass])⟩
  · exact absurd h (not_armed_of_none hnone)
  · rcases hfought.state with hnone | ⟨hstate, hengaged⟩
    · exact absurd h (not_armed_of_none hnone)
    · rw [hstate] at h
      obtain ⟨rfl, hsight, ⟨hf, n, x, y, haim⟩ | ⟨harmed, hnofire⟩⟩ :=
        hfought.engaged.armed z f hengaged h
      · exact .inl ⟨⟨n, x, y, (hfought.mem rfl).2 haim⟩, hf⟩
      · rcases hsame with rfl | hnone
        · refine .inr ⟨harmed, .inl ⟨hfought.chosen.right hsight, fun w hfires => ?_⟩⟩
          exact hnofire w ((hfought.mem rfl).1 hfires)
        · exact absurd harmed (not_armed_of_none hnone)

/-- A tick that aims does not fire. -/
theorem not_fires_of_aims (h : Aims s sc z) : ¬Fires s sc w := by
  obtain ⟨n, x, y, h⟩ := h
  intro hfires
  unfold Fires at hfires
  rcases update_spec s sc with hpass | ⟨-, hquiet⟩ | ⟨v, s', r, before, after, -, hfought⟩
  · rw [hpass] at h
    simp at h
  · cases hquiet _ h
  · rw [hfought.mem rfl] at h hfires
    exact hfought.engaged.once z w n x y h hfires

/-- A tick that stands by an aim does not fire. -/
theorem not_fires_of_standsBy (h : StandsBy z s sc) : ¬Fires s sc w := by
  rcases h with ⟨-, hnone⟩ | hpass
  · exact hnone w
  · unfold Fires
    rw [hpass]
    simp

/-! ## Whole runs -/

/-- The aim a run leaves was taken in one of its ticks, and stood by since. -/
theorem since_of_armed {scs : List Scene} (h : Armed (Machine.run step start scs) z f) :
    Machine.Since step (fun s sc => Aims s sc z ∧ f = sc.now + shotWindupMs) (StandsBy z)
      start scs := by
  refine Machine.since_of_run (P := fun s => Armed s z f) (fun s sc h => armed_step h) ?_ h
  exact not_armed_of_none rfl

/-- **No shot without aim.** In every run, a tick that fires at a zombie finds everything right;
an earlier tick of the run took aim at that zombie, with everything right, the windup before; and
every tick in between stood by the aim. -/
theorem shot_justified (scs : List Scene) (sc : Scene) (z : ℕ)
    (h : Fires (Machine.run step start scs) sc z) :
    Right sc z ∧ ∃ before aimed between, scs = before ++ aimed :: between ∧
      Aims (Machine.run step start before) aimed z ∧ Right aimed z ∧
      aimed.now + shotWindupMs ≤ sc.now ∧
      Machine.Meets step (StandsBy z) (Machine.run step start (before ++ [aimed])) between := by
  obtain ⟨hright, f, hf, harmed⟩ := armed_of_fires h
  obtain ⟨before, aimed, between, rfl, ⟨haims, rfl⟩, hstands⟩ := since_of_armed harmed
  exact ⟨hright, before, aimed, between, rfl, haims, right_of_aims haims, hf, hstands⟩

/-- A following body in a yard, with a zombie near its owner. -/
def yard (now : ℤ) : Scene where
  now := now
  body := ⟨Body.mark 1 (Bytes.lit "Alice") Config.npcId, true⟩
  self := 0
  riding := false
  position := some ⟨0, 0, 0⟩
  players := [⟨Bytes.lit "Alice", false, some ⟨1, 0, 0⟩⟩]
  zombies := [7]
  look _ := ⟨false, false, some 1, some ⟨3, 0, 0⟩⟩
  after := ⟨false, false, some (1 / 2), some ⟨3, 0, 0⟩⟩
  lineClear _ _ := some true
  moving := false
  inventory := some [weapon]
  adds := false
  hits := true
  combatRadius := none
  followRunDistance := none

theorem shot_justified_yard :
    Right (yard 400) 7 ∧ ∃ before aimed between, [yard 0] = before ++ aimed :: between ∧
      Aims (Machine.run step start before) aimed 7 ∧ Right aimed 7 ∧
      aimed.now + shotWindupMs ≤ 400 ∧
      Machine.Meets step (StandsBy 7) (Machine.run step start (before ++ [aimed])) between :=
  shot_justified [yard 0] (yard 400) 7 (by
    unfold Fires
    decide +kernel)

/-- What is true of every tick of a run is true of each. -/
theorem standsBy_at {before after : List Scene}
    (h : Machine.Meets step (StandsBy z) s (before ++ sc :: after)) :
    StandsBy z (Machine.run step s before) sc :=
  (Machine.meets_append.1 h).2.1

/-- **Shots are apart.** While the clock does not go back, two shots of a run, at whatever
zombies, are at least the windup apart. -/
theorem shots_apart (before between : List Scene) (first second : Scene) (y z : ℕ)
    (hclock : ((before ++ first :: between).map Scene.now).Pairwise (· ≤ ·))
    (hfirst : Fires (Machine.run step start before) first y)
    (hsecond : Fires (Machine.run step start (before ++ first :: between)) second z) :
    first.now + shotWindupMs ≤ second.now := by
  obtain ⟨-, f, hf, harmed⟩ := armed_of_fires hsecond
  obtain ⟨before', aimed, between', hsplit, ⟨haims, rfl⟩, hstands⟩ := since_of_armed harmed
  rcases List.append_eq_append_iff.1 hsplit with ⟨l, rfl, hrest⟩ | ⟨l, rfl, hrest⟩
  · -- The aim was taken in the first shot's tick, or later.
    cases l with
    | nil =>
      obtain ⟨rfl, -⟩ := List.cons.inj hrest
      rw [List.append_nil] at haims
      exact absurd hfirst (not_fires_of_aims haims)
    | cons a l =>
      obtain ⟨rfl, rfl⟩ := List.cons.inj hrest
      rw [List.map_append, List.pairwise_append] at hclock
      have hle : first.now ≤ aimed.now := by
        refine (List.pairwise_cons.1 hclock.2.1).1 _ (List.mem_map_of_mem ?_)
        simp
      omega
  · cases l with
    | nil =>
      obtain ⟨rfl, -⟩ := List.cons.inj hrest
      rw [List.append_nil] at hfirst
      exact absurd hfirst (not_fires_of_aims haims)
    | cons a l =>
      -- The first shot lies between the aim and the second.
      obtain ⟨rfl, rfl⟩ := List.cons.inj hrest
      have hnot := not_fires_of_standsBy (w := y) (standsBy_at hstands)
      rw [← Machine.run_append, List.append_assoc, List.singleton_append] at hnot
      exact absurd hfirst hnot

theorem shots_apart_yard : (yard 400).now + shotWindupMs ≤ (yard 1600).now :=
  shots_apart [yard 0] [yard 1200] (yard 400) (yard 1600) 7 7 (by decide)
    (by
      unfold Fires
      decide +kernel)
    (by
      unfold Fires
      decide +kernel)

end Defense

end GoblinZomboid
