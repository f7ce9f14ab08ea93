import GoblinZomboid.Lib.LuaPattern
import GoblinZomboid.Lib.LuaValue
/-!
# The bridge root option of `Config.lua`

A path below the server's directory may replace the default root. The
pattern that checks it reads like a repeated group, which a Lua pattern does
not have: its last star is a byte of the text.
-/

namespace GoblinZomboid

namespace Config

/-- `Config.defaultBridgeRoot`. -/
def defaultBridgeRoot : Bytes := Bytes.lit "goblin-bridge"

/-- The pattern of `safeBridgeRoot`. -/
def bridgeRootPattern : String := "^[A-Za-z0-9][A-Za-z0-9%._%-]*(/[A-Za-z0-9][A-Za-z0-9%._%-]*)*$"

/-- `safeBridgeRoot`. -/
def safeBridgeRoot : LuaValue → Bool
  | .str value => 1 ≤ value.length && value.length ≤ 96
      && LuaPattern.found bridgeRootPattern value && !LuaPattern.found "%.%." value
  | _ => false

/-- `Config.bridgeRootOverride`, as `Config.refresh` sets it from the option. -/
def bridgeRootOverride (root : LuaValue) : Bytes :=
  if safeBridgeRoot root then root.str?.getD [] else []

/-- `Config.bridgeRoot`. -/
def bridgeRoot (root : LuaValue) : Bytes :=
  if bridgeRootOverride root ≠ [] then bridgeRootOverride root else defaultBridgeRoot

/-! ## The paths that are meant -/

/-- A byte of a component. -/
def rootByte (b : UInt8) : Bool := Bytes.isAlnum b || b == 46 || b == 95 || b == 45

/-- A component of a path. -/
def isComponent : Bytes → Bool
  | [] => false
  | b :: rest => Bytes.isAlnum b && rest.all rootByte

/-- A relative path: components between slashes, no two dots in a row. -/
structure RelativePath (s : Bytes) : Prop where
  length : s.length ≤ 96
  components : ∃ parts ≠ [], (∀ part ∈ parts, isComponent part = true) ∧
    s = List.intercalate [47] parts
  dots : ¬ [46, 46] <:+: s

/-- What the pattern takes instead: two components, and a star. -/
structure StarredPath (s : Bytes) : Prop where
  length : s.length ≤ 96
  components : ∃ a b, isComponent a = true ∧ isComponent b = true ∧ s = a ++ 47 :: (b ++ [42])
  dots : ¬ [46, 46] <:+: s

/-- The option is judged as it is meant: a relative path is accepted and
used, and nothing else is. -/
structure WellJudged (root : LuaValue) : Prop where
  accepted : ∀ s, root = .str s → (safeBridgeRoot root = true ↔ RelativePath s)
  used : ∀ s, root = .str s → RelativePath s → bridgeRoot root = s
  fallback : (∀ s, root = .str s → ¬ RelativePath s) → bridgeRoot root = defaultBridgeRoot

/-! ## What the patterns find -/

section

variable {s : Bytes}

/-- The items the pattern is read into. -/
theorem read_bridgeRootPattern : LuaPattern.read bridgeRootPattern =
    ⟨true, [.one Bytes.isAlnum, .star rootByte, .openCapture, .one fun b => b == 47,
      .one Bytes.isAlnum, .star rootByte, .closeCapture, .one fun b => b == 42, .atEnd]⟩ := by
  have hhead : (fun b : UInt8 => ((false || (65 ≤ b && b ≤ 90)) || (97 ≤ b && b ≤ 122)) ||
      (48 ≤ b && b ≤ 57)) = Bytes.isAlnum := by
    funext b
    exact Bytes.forall_byte (p := fun b => (((false || (65 ≤ b && b ≤ 90)) ||
      (97 ≤ b && b ≤ 122)) || (48 ≤ b && b ≤ 57)) = Bytes.isAlnum b) (by decide +kernel) b
  have htail : (fun b : UInt8 => (((((false || (65 ≤ b && b ≤ 90)) || (97 ≤ b && b ≤ 122)) ||
      (48 ≤ b && b ≤ 57)) || b == 46) || b == 95) || b == 45) = rootByte := by
    funext b
    exact Bytes.forall_byte (p := fun b => ((((((false || (65 ≤ b && b ≤ 90)) ||
      (97 ≤ b && b ≤ 122)) || (48 ≤ b && b ≤ 57)) || b == 46) || b == 95) || b == 45) =
        rootByte b) (by decide +kernel) b
  rw [← hhead, ← htail]
  rfl

theorem isComponent_cons {b : UInt8} {rest : Bytes} :
    isComponent (b :: rest) = true ↔ Bytes.isAlnum b = true ∧ ∀ c ∈ rest, rootByte c = true := by
  rw [isComponent, Bool.and_eq_true, List.all_eq_true]

/-- **What the root pattern finds.** -/
theorem found_bridgeRootPattern : LuaPattern.found bridgeRootPattern s = true ↔
    ∃ a b, isComponent a = true ∧ isComponent b = true ∧ s = a ++ 47 :: (b ++ [42]) := by
  rw [LuaPattern.found_anchored read_bridgeRootPattern]
  simp only [LuaPattern.Accepts]
  constructor
  · rintro ⟨x, _, rfl, hx, run, _, rfl, hrun, slash, _, rfl, hslash, y, _, rfl, hy, run', _, rfl,
      hrun', star, _, rfl, hstar, rfl, -⟩
    refine ⟨x :: run, y :: run', isComponent_cons.mpr ⟨hx, hrun⟩,
      isComponent_cons.mpr ⟨hy, hrun'⟩, ?_⟩
    rw [beq_iff_eq.mp hslash, beq_iff_eq.mp hstar]
    rfl
  · rintro ⟨a, b, ha, hb, rfl⟩
    cases a with
    | nil => cases ha
    | cons x run =>
      cases b with
      | nil => cases hb
      | cons y run' =>
        obtain ⟨hx, hrun⟩ := isComponent_cons.mp ha
        obtain ⟨hy, hrun'⟩ := isComponent_cons.mp hb
        exact ⟨x, _, rfl, hx, run, _, rfl, hrun, 47, _, rfl, rfl, y, _, rfl, hy, run', _, rfl,
          hrun', 42, [], rfl, rfl, rfl, trivial⟩

/-- Two dots in a row are found wherever they are. -/
theorem found_dots : LuaPattern.found "%.%." s = true ↔ [46, 46] <:+: s := by
  have hread : LuaPattern.read "%.%." = ⟨false, [.one fun b => b == 46, .one fun b => b == 46]⟩ :=
    rfl
  rw [LuaPattern.found_free hread]
  simp only [LuaPattern.Accepts]
  constructor
  · rintro ⟨front, _, rfl, x, _, rfl, hx, y, rest, rfl, hy, -⟩
    obtain rfl := beq_iff_eq.mp hx
    obtain rfl := beq_iff_eq.mp hy
    exact ⟨front, rest, by simp⟩
  · rintro ⟨front, rest, rfl⟩
    exact ⟨front, 46 :: 46 :: rest, by simp, 46, _, rfl, rfl, 46, rest, rfl, rfl, trivial⟩

/-- **What `safeBridgeRoot` accepts**: the starred paths. -/
theorem safeBridgeRoot_iff : safeBridgeRoot (.str s) = true ↔ StarredPath s := by
  unfold safeBridgeRoot
  rw [Bool.and_eq_true, Bool.and_eq_true, Bool.and_eq_true, Bool.not_eq_true',
    ← Bool.not_eq_true, found_dots, found_bridgeRootPattern, decide_eq_true_eq, decide_eq_true_eq]
  constructor
  · rintro ⟨⟨⟨-, hlen⟩, htext⟩, hdots⟩
    exact ⟨hlen, htext, hdots⟩
  · rintro ⟨hlen, ⟨a, b, ha, hb, rfl⟩, hdots⟩
    refine ⟨⟨⟨?_, hlen⟩, a, b, ha, hb, rfl⟩, hdots⟩
    rw [List.length_append]
    simp
    omega

/-- No byte of a path is a star. -/
theorem RelativePath.no_star (h : RelativePath s) : 42 ∉ s := by
  obtain ⟨parts, -, hparts, rfl⟩ := h.components
  clear h
  intro hstar
  rw [List.intercalate, List.mem_flatten] at hstar
  obtain ⟨piece, hpiece, hin⟩ := hstar
  have hcomponent : ∀ part, isComponent part = true → 42 ∉ part := by
    intro part hpart hmem
    cases part with
    | nil => cases hmem
    | cons b rest =>
      obtain ⟨hb, hrest⟩ := isComponent_cons.mp hpart
      rcases List.mem_cons.mp hmem with rfl | hmem
      · cases hb
      · exact absurd (hrest 42 hmem) (by decide)
  have hor : piece = [47] ∨ piece ∈ parts := by
    clear hparts hin
    induction parts with
    | nil => cases hpiece
    | cons part parts ih =>
      cases parts with
      | nil =>
        rw [List.intersperse_singleton] at hpiece
        exact .inr hpiece
      | cons next parts =>
        rw [List.intersperse_cons_cons] at hpiece
        rcases List.mem_cons.mp hpiece with rfl | hpiece
        · exact .inr List.mem_cons_self
        rcases List.mem_cons.mp hpiece with rfl | hpiece
        · exact .inl rfl
        · exact (ih hpiece).imp_right (List.mem_cons_of_mem _)
  rcases hor with rfl | hmem
  · exact absurd hin (by decide)
  · exact hcomponent piece (hparts piece hmem) hin

theorem StarredPath.star (h : StarredPath s) : 42 ∈ s := by
  obtain ⟨a, b, -, -, rfl⟩ := h.components
  simp

/-- So no relative path is accepted. -/
theorem RelativePath.rejected (h : RelativePath s) : safeBridgeRoot (.str s) = false := by
  rw [← Bool.not_eq_true, safeBridgeRoot_iff]
  exact fun hstarred => h.no_star hstarred.star

end

/-- **When the option is judged as it is meant**: when it is neither a
relative path nor two components and a star. -/
theorem wellJudged_iff (root : LuaValue) :
    WellJudged root ↔ ∀ s, root = .str s → ¬ RelativePath s ∧ ¬ StarredPath s := by
  constructor
  · rintro h s rfl
    constructor
    · intro hpath
      have haccepted := (h.accepted s rfl).mpr hpath
      rw [hpath.rejected] at haccepted
      cases haccepted
    · intro hstarred
      have hpath := (h.accepted s rfl).mp (safeBridgeRoot_iff.mpr hstarred)
      exact hpath.no_star hstarred.star
  · intro h
    have hrefused : safeBridgeRoot root = false := by
      cases root with
      | str s => rw [← Bool.not_eq_true, safeBridgeRoot_iff]; exact (h s rfl).2
      | _ => rfl
    have hdefault : bridgeRoot root = defaultBridgeRoot := by
      unfold bridgeRoot bridgeRootOverride
      rw [hrefused]
      rfl
    refine ⟨?_, ?_, fun _ => hdefault⟩
    · rintro s rfl
      rw [hrefused]
      exact ⟨nofun, fun hpath => absurd hpath (h s rfl).1⟩
    · rintro s rfl hpath
      exact absurd hpath (h s rfl).1

/-- A path of two components, which is not accepted. -/
theorem not_wellJudged_path : ¬ WellJudged (.str (Bytes.lit "pz/bridge")) := by
  intro h
  have hpath : RelativePath (Bytes.lit "pz/bridge") :=
    ⟨by decide, ⟨[Bytes.lit "pz", Bytes.lit "bridge"], by simp, by decide,
      by decide⟩, by decide⟩
  have haccepted := (h.accepted _ rfl).mpr hpath
  rw [hpath.rejected] at haccepted
  cases haccepted

/-- And one with a star, which is. -/
example : safeBridgeRoot (.str (Bytes.lit "pz/bridge*")) = true := by decide

end Config

end GoblinZomboid
