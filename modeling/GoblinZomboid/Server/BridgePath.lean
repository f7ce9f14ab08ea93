import GoblinZomboid.Agent.Protocol
import GoblinZomboid.Lib.Utf8
import GoblinZomboid.Server.Ipc
/-!
# The names of bridge files

`IPC.lua` writes the files of a message under its stem with a suffix, and
`ServerSupport.bridgePath` decides which of these paths the server's
writer accepts. Neither a colon nor a double dot passes there, and two
stems can name one file.
-/

namespace GoblinZomboid

/-! ## `ServerSupport.java` -/

namespace ServerSupport

/-- `CHANNELS`. -/
def channels : List Bytes :=
  ["events", "state", "runtime", "responses", "acks", "commands", "archive", "deadletter"].map
    Bytes.lit

def extensions : List Bytes := ["json", "ready", "done"].map Bytes.lit

/-- `[A-Za-z0-9_.-]`. -/
def nameByte (b : UInt8) : Bool := Bytes.isAlnum b || b == 95 || b == 46 || b == 45

/-- `[A-Za-z0-9][A-Za-z0-9_.-]{0,160}`. -/
def baseName (s : Bytes) : Bool :=
  match s with
  | [] => false
  | b :: rest => Bytes.isAlnum b && rest.length ≤ 160 && rest.all nameByte

/-- The whole of a name matches
`[A-Za-z0-9][A-Za-z0-9_.-]{0,160}\.(json|ready|done)`. -/
def fileName (s : Bytes) : Bool :=
  extensions.any fun extension =>
    (46 :: extension).isSuffixOf s && baseName (s.take (s.length - (extension.length + 1)))

/-- `Path.normalize` of the components of an absolute path. -/
def normalize (components : List Bytes) : List Bytes :=
  components.foldl (fun path component =>
    if component = [] ∨ component = Bytes.lit "." then path
    else if component = Bytes.lit ".." then path.dropLast
    else path ++ [component]) []

/-- `bridgePath`: the components of the file below the cache directory;
`none` where it raises. -/
def bridgePath (cache : List Bytes) (relative : Bytes) : Option (List Bytes) :=
  if 240 < relative.length ∨ 92 ∈ relative ∨ Bytes.lit ".." <:+: relative then none
  else
    let parts := relative.splitOn 47
    match parts with
    | [bridge, channel, name] =>
      if bridge ≠ Bytes.lit "goblin-bridge" || !channels.contains channel || !fileName name then
        none
      else
        let root := normalize cache ++ [Bytes.lit "Lua", Bytes.lit "goblin-bridge"]
        let result := normalize (normalize cache ++ Bytes.lit "Lua" :: parts)
        if root.isPrefixOf result then some result else none
    | _ => none

end ServerSupport

/-! ## `IPC.lua` -/

namespace IPC

/-- `channels`. -/
def channels : List Bytes :=
  ["state", "events", "commands", "responses", "acks", "runtime", "archive", "deadletter"].map
    Bytes.lit

/-- `Config.defaultBridgeRoot`. -/
def defaultBridgeRoot : Bytes := Bytes.lit "goblin-bridge"

/-- `IPC.root .. "/" .. channel .. "/" .. name`. -/
def path (channel name : Bytes) : Bytes :=
  defaultBridgeRoot ++ Bytes.lit "/" ++ channel ++ Bytes.lit "/" ++ name

/-- `os.time()` and `IPC.sequence` at an archive copy. -/
structure Stamp where
  time : ℕ
  sequence : ℕ
  deriving DecidableEq

/-- `safe .. "-" .. suffix`. -/
def targetStem (stem : Bytes) (stamp : Stamp) : Bytes :=
  stem ++ Bytes.lit "-" ++ (Bytes.decimal stamp.time ++ Bytes.lit "-" ++
    Bytes.decimal stamp.sequence)

def Destination.channel : Destination → Bytes
  | .archive => Bytes.lit "archive"
  | .deadletter => Bytes.lit "deadletter"

/-- A call that writes files. -/
inductive Write
  | publish (channel stem : Bytes)
  | publishRuntime (stem : Bytes)
  | archiveReady (channel stem : Bytes) (destination : Destination) (stamp : Stamp)

def Write.stem : Write → Bytes
  | .publish _ stem => stem
  | .publishRuntime stem => stem
  | .archiveReady _ stem _ _ => stem

/-- The paths a call hands to `writeFile` when every write succeeds. -/
def Write.paths : Write → List Bytes
  | .publish channel stem =>
    match safeStem (.str stem) with
    | some stem =>
      if channels.contains channel then
        [path channel (stem ++ Bytes.lit ".json"), path channel (stem ++ Bytes.lit ".ready")]
      else []
    | none => []
  | .publishRuntime stem =>
    match safeStem (.str stem) with
    | some stem => [path (Bytes.lit "runtime") (stem ++ Bytes.lit ".json")]
    | none => []
  | .archiveReady channel stem destination stamp =>
    match safeStem (.str stem) with
    | some safe =>
      if channels.contains channel then
        let target := targetStem safe stamp
        [path destination.channel (target ++ Bytes.lit ".json"),
          path destination.channel (target ++ Bytes.lit ".ready"),
          path destination.channel (target ++ Bytes.lit ".reason.json"),
          path channel (safe ++ Bytes.lit ".done"),
          path channel (safe ++ Bytes.lit ".processed.json")]
      else []
    | none => []

/-- The call makes its copies, if any, at one of these stamps. -/
def Write.Within (stamps : List Stamp) : Write → Prop
  | .archiveReady _ _ _ stamp => stamp ∈ stamps
  | _ => True

end IPC

/-! ## What the writer accepts -/

namespace ServerSupport

variable {cache : List Bytes} {base extension channel name : Bytes}

/-- A component `normalize` keeps. -/
def Plain (component : Bytes) : Prop :=
  component ≠ [] ∧ component ≠ Bytes.lit "." ∧ component ≠ Bytes.lit ".."

theorem notMem_dot_of_mem (h : extension ∈ extensions) : 46 ∉ extension := by
  have hall : ∀ e ∈ extensions, 46 ∉ e := by decide
  exact hall extension h

/-- The extension of a file name is what follows its last dot. -/
theorem fileName_append (h : extension ∈ extensions) :
    fileName (base ++ 46 :: extension) = baseName base := by
  have htake : ∀ e : Bytes, (base ++ 46 :: e).take
      ((base ++ 46 :: e).length - (e.length + 1)) = base := by
    intro e
    rw [List.length_append, List.length_cons, Nat.add_sub_cancel, List.take_left]
  rw [Bool.eq_iff_iff]
  unfold fileName
  simp only [List.any_eq_true, Bool.and_eq_true, List.isSuffixOf_iff_suffix]
  constructor
  · rintro ⟨e, he, ⟨front, hfront⟩, hbase⟩
    obtain ⟨rfl, rfl⟩ := Bytes.append_cons_inj_of_notMem_right (notMem_dot_of_mem he)
      (notMem_dot_of_mem h) hfront
    rwa [htake] at hbase
  · intro hbase
    exact ⟨extension, h, ⟨base, rfl⟩, by rwa [htake]⟩

/-- Components `normalize` keeps are put behind the path. -/
theorem foldl_plain {components : List Bytes} (h : ∀ c ∈ components, Plain c)
    (path : List Bytes) :
    components.foldl (fun path component =>
      if component = [] ∨ component = Bytes.lit "." then path
      else if component = Bytes.lit ".." then path.dropLast
      else path ++ [component]) path = path ++ components := by
  induction components generalizing path with
  | nil => simp
  | cons component components ih =>
    obtain ⟨hnil, hdot, hdots⟩ := h component List.mem_cons_self
    rw [List.foldl_cons, if_neg (by tauto), if_neg hdots,
      ih fun c hc => h c (List.mem_cons_of_mem _ hc)]
    simp

/-- What is normalized has only components that are kept. -/
theorem plain_normalize (components : List Bytes) : ∀ c ∈ normalize components, Plain c := by
  have key : ∀ path : List Bytes, (∀ c ∈ path, Plain c) →
      ∀ c ∈ components.foldl (fun path component =>
        if component = [] ∨ component = Bytes.lit "." then path
        else if component = Bytes.lit ".." then path.dropLast
        else path ++ [component]) path, Plain c := by
    induction components with
    | nil => exact fun path h => h
    | cons component components ih =>
      intro path hpath
      rw [List.foldl_cons]
      refine ih _ ?_
      split_ifs with hskip hup
      · exact hpath
      · exact fun c hc => hpath c (List.dropLast_subset path hc)
      · intro c hc
        rcases List.mem_append.1 hc with hc | hc
        · exact hpath c hc
        · rw [List.mem_singleton.1 hc]
          exact ⟨fun h => hskip (Or.inl h), fun h => hskip (Or.inr h), hup⟩
  exact key [] (by simp)

theorem normalize_append {components : List Bytes} (h : ∀ c ∈ components, Plain c) :
    normalize (normalize cache ++ components) = normalize cache ++ components := by
  have hall : ∀ c ∈ normalize cache ++ components, Plain c := by
    intro c hc
    rcases List.mem_append.1 hc with hc | hc
    · exact plain_normalize cache c hc
    · exact h c hc
  exact foldl_plain hall []

theorem plain_of_fileName (h : fileName name = true) : Plain name := by
  obtain ⟨extension, hextension, hname⟩ := List.any_eq_true.1 h
  rw [Bool.and_eq_true, List.isSuffixOf_iff_suffix] at hname
  obtain ⟨⟨front, rfl⟩, -⟩ := hname
  rw [fileName_append hextension] at h
  cases front with
  | nil => exact absurd h (by simp [baseName])
  | cons b rest =>
    unfold baseName at h
    simp only [Bool.and_eq_true] at h
    have hb := h.1.1
    have hdot : b ≠ 46 := by
      rintro rfl
      exact absurd hb (by decide)
    have hone : Bytes.lit "." = [46] := by decide
    have htwo : Bytes.lit ".." = [46, 46] := by decide
    refine ⟨by simp, fun heq => ?_, fun heq => ?_⟩
    · rw [hone] at heq
      exact hdot (List.head_eq_of_cons_eq heq)
    · rw [htwo] at heq
      exact hdot (List.head_eq_of_cons_eq heq)

/-- The channels of the two sides are the same. -/
theorem mem_channels_iff : channel ∈ channels ↔ channel ∈ IPC.channels := by
  have hthere : ∀ c ∈ channels, c ∈ IPC.channels := by decide
  have hback : ∀ c ∈ IPC.channels, c ∈ channels := by decide
  exact ⟨hthere channel, hback channel⟩

/-- What the names of the channels have in common. -/
theorem channel_spec (h : channel ∈ IPC.channels) :
    47 ∉ channel ∧ 46 ∉ channel ∧ 92 ∉ channel ∧ channel.length ≤ 10 ∧ Plain channel := by
  have hall : ∀ c ∈ IPC.channels, 47 ∉ c ∧ 46 ∉ c ∧ 92 ∉ c ∧ c.length ≤ 10 ∧
      c ≠ [] ∧ c ≠ Bytes.lit "." ∧ c ≠ Bytes.lit ".." := by decide
  exact hall channel h

/-- A path splits into its three parts. -/
theorem splitOn_path (hchannel : channel ∈ IPC.channels) (hname : 47 ∉ name) :
    (IPC.path channel name).splitOn 47 = [Bytes.lit "goblin-bridge", channel, name] := by
  have hpath : IPC.path channel name =
      [47].intercalate [Bytes.lit "goblin-bridge", channel, name] := by
    have hslash : Bytes.lit "/" = [47] := by decide
    simp [IPC.path, IPC.defaultBridgeRoot, List.intercalate, hslash]
  rw [hpath]
  refine List.splitOn_intercalate 47 (fun part hpart => ?_) (by simp)
  simp only [List.mem_cons, List.not_mem_nil, or_false] at hpart
  rcases hpart with rfl | rfl | rfl
  · decide
  · exact (channel_spec hchannel).1
  · exact hname

/-- **The writer's verdict on a path of a channel** is one on its name. -/
theorem bridgePath_path (hchannel : channel ∈ IPC.channels) (hname : 47 ∉ name) :
    (bridgePath cache (IPC.path channel name)).isSome = true ↔
      name.length + channel.length ≤ 225 ∧ 92 ∉ name ∧ Bytes.Single 46 name ∧
        fileName name = true := by
  obtain ⟨-, hdot, hback, -, hplain⟩ := channel_spec hchannel
  have hfront : 46 ∉ Bytes.lit "goblin-bridge" ++ Bytes.lit "/" ++ channel ++ Bytes.lit "/" := by
    have hrest : 46 ∉ Bytes.lit "goblin-bridge" ++ Bytes.lit "/" ∧ 46 ∉ Bytes.lit "/" := by
      decide
    rw [List.mem_append, List.mem_append]
    tauto
  have hlength : (IPC.path channel name).length = 15 + channel.length + name.length := by
    have hrest : (Bytes.lit "goblin-bridge").length = 13 ∧ (Bytes.lit "/").length = 1 := by
      decide
    simp only [IPC.path, IPC.defaultBridgeRoot, List.length_append, hrest.1, hrest.2]
    omega
  have hbackslash : 92 ∈ IPC.path channel name ↔ 92 ∈ name := by
    have hrest : 92 ∉ Bytes.lit "goblin-bridge" ∧ 92 ∉ Bytes.lit "/" := by decide
    simp only [IPC.path, IPC.defaultBridgeRoot, List.mem_append]
    tauto
  have hdots : Bytes.lit ".." <:+: IPC.path channel name ↔ ¬ Bytes.Single 46 name := by
    have htwo : Bytes.lit ".." = [46, 46] := by decide
    have hsingle : Bytes.Single 46 (IPC.path channel name) ↔ Bytes.Single 46 name := by
      unfold IPC.path
      rw [Bytes.single_append]
      constructor
      · exact fun h => h.2.1
      · intro h
        refine ⟨Bytes.single_of_notMem hfront, h, fun hmeet => ?_⟩
        exact hfront (List.mem_of_getLast? hmeet.1)
    rw [htwo, ← hsingle, Bytes.single_iff, not_not]
  unfold bridgePath
  rw [splitOn_path hchannel hname]
  by_cases hcheck : 240 < (IPC.path channel name).length ∨ 92 ∈ IPC.path channel name ∨
      Bytes.lit ".." <:+: IPC.path channel name
  · rw [if_pos hcheck]
    rw [hlength, hbackslash, hdots] at hcheck
    simp only [Option.isSome_none, Bool.false_eq_true, false_iff]
    rintro ⟨hlen, hno, hsingle, -⟩
    rcases hcheck with h | h | h
    · omega
    · exact hno h
    · exact h hsingle
  · rw [if_neg hcheck]
    rw [hlength, hbackslash, hdots] at hcheck
    have hmem : channels.contains channel = true :=
      List.contains_iff_mem.2 (mem_channels_iff.2 hchannel)
    by_cases hfile : fileName name = true
    · have hparts : ∀ c ∈ [Bytes.lit "Lua", Bytes.lit "goblin-bridge", channel, name],
          Plain c := by
        have hrest : Plain (Bytes.lit "Lua") ∧ Plain (Bytes.lit "goblin-bridge") := by
          unfold Plain
          decide
        intro c hc
        simp only [List.mem_cons, List.not_mem_nil, or_false] at hc
        rcases hc with rfl | rfl | rfl | rfl
        · exact hrest.1
        · exact hrest.2
        · exact hplain
        · exact plain_of_fileName hfile
      have hresult : normalize (normalize cache ++
          [Bytes.lit "Lua", Bytes.lit "goblin-bridge", channel, name]) =
            normalize cache ++ [Bytes.lit "Lua", Bytes.lit "goblin-bridge", channel, name] :=
        normalize_append hparts
      have hprefixed : (normalize cache ++ [Bytes.lit "Lua", Bytes.lit "goblin-bridge"]).isPrefixOf
          (normalize cache ++ [Bytes.lit "Lua", Bytes.lit "goblin-bridge", channel, name]) = true :=
        List.isPrefixOf_iff_prefix.2 ⟨[channel, name], by simp⟩
      simp only [hmem, hfile, hresult, hprefixed, ne_eq, not_true_eq_false, decide_false,
        Bool.not_true, Bool.or_self, Bool.false_eq_true, if_false, if_true, Option.isSome_some,
        true_iff, and_true]
      refine ⟨by omega, fun h => hcheck (Or.inr (Or.inl h)), ?_⟩
      by_contra hsingle
      exact hcheck (Or.inr (Or.inr hsingle))
    · simp [hfile]

end ServerSupport

/-! ## What the stems write -/

namespace IPC

open ServerSupport

variable {cache : List Bytes} {s t base extension channel tail : Bytes} {stamps : List Stamp}
variable {stamp stamp' : Stamp}

theorem safeStem_iff :
    safeStem (.str s) = some s ↔
      s.length ≤ 128 ∧ s.head?.any Bytes.isAlnum = true ∧ ∀ b ∈ s, Net.idByte b = true := by
  have hbad : (s.any fun b => !Net.idByte b) = true ↔ ¬ ∀ b ∈ s, Net.idByte b = true := by
    simp
  unfold safeStem
  dsimp only
  by_cases hlen : (decide (s.length < 1) || decide (128 < s.length)) = true
  · rw [if_pos hlen]
    simp only [Bool.or_eq_true, decide_eq_true_eq] at hlen
    constructor
    · intro h
      cases h
    · rintro ⟨hle, hhead, -⟩
      rcases hlen with hlen | hlen
      · have hnil : s = [] := List.length_eq_zero_iff.1 (by omega)
        rw [hnil] at hhead
        exact absurd hhead (by decide)
      · omega
  · rw [if_neg hlen]
    simp only [Bool.or_eq_true, decide_eq_true_eq] at hlen
    by_cases hhead : s.head?.any Bytes.isAlnum = true
    · rw [hhead, Bool.not_true, if_neg Bool.false_ne_true]
      by_cases hall : ∀ b ∈ s, Net.idByte b = true
      · rw [if_neg (fun h => hbad.1 h hall)]
        exact ⟨fun _ => ⟨by omega, rfl, hall⟩, fun _ => rfl⟩
      · rw [if_pos (hbad.2 hall)]
        exact ⟨fun h => (by cases h), fun h => absurd h.2.2 hall⟩
    · have hno : (!s.head?.any Bytes.isAlnum) = true := by simpa using hhead
      rw [if_pos hno]
      exact ⟨fun h => (by cases h), fun h => absurd h.2.1 hhead⟩

/-- A letter or digit is a byte of that kind. -/
theorem exists_byte_of_isAlphanum {c : Char} (h : c.isAlphanum = true) :
    ∃ b, String.utf8EncodeChar c = [b] ∧ Bytes.isAlnum b = true := by
  have hrange := Utf8.range_of_isAlphanum h
  have hsmall : c.toNat < 128 := by omega
  obtain ⟨b, -, hb, hencode⟩ := Utf8.exists_byte_of_ascii hsmall
  refine ⟨b, hencode, ?_⟩
  have hval : b.toNat = c.val.toNat := hb
  simp only [Bytes.isAlnum, Bytes.isAlpha, Bytes.isUpper, Bytes.isLower, Bytes.isDigit,
    Bool.or_eq_true, Bool.and_eq_true, decide_eq_true_eq, UInt8.le_iff_toNat_le]
  simp at h ⊢
  omega

/-- A character of a request id is a byte of a stem. -/
theorem exists_byte_of_idChar {c : Char}
    (h : (Protocol.isAlnum c || c == '.' || c == '_' || c == ':' || c == '-') = true) :
    ∃ b, String.utf8EncodeChar c = [b] ∧ Net.idByte b = true := by
  simp only [Bool.or_eq_true, beq_iff_eq] at h
  rcases h with (((h | rfl) | rfl) | rfl) | rfl
  · obtain ⟨b, hencode, hb⟩ := exists_byte_of_isAlphanum h
    exact ⟨b, hencode, by simp [Net.idByte, hb]⟩
  · exact ⟨46, by decide, by decide⟩
  · exact ⟨95, by decide, by decide⟩
  · exact ⟨58, by decide, by decide⟩
  · exact ⟨45, by decide, by decide⟩

/-- The bytes of the rest of a request id. -/
theorem encode_idChars {t : PyText}
    (h : ∀ c ∈ t, (Protocol.isAlnum c || c == '.' || c == '_' || c == ':' || c == '-') = true) :
    (Utf8.encode t).length = t.length ∧ ∀ b ∈ Utf8.encode t, Net.idByte b = true := by
  induction t with
  | nil => simp
  | cons c t ih =>
    obtain ⟨b, hencode, hb⟩ := exists_byte_of_idChar (h c List.mem_cons_self)
    obtain ⟨hlen, hall⟩ := ih fun d hd => h d (List.mem_cons_of_mem c hd)
    rw [Utf8.encode_cons, hencode]
    refine ⟨by simp [hlen], fun d hd => ?_⟩
    rcases List.mem_cons.1 hd with rfl | hd
    · exact hb
    · exact hall d hd

/-- **The identifiers of the agent are stems.** -/
theorem safeStem_of_validRequestId {id : PyText} (h : Protocol.validRequestId id = true) :
    safeStem (.str (Utf8.encode id)) = some (Utf8.encode id) := by
  cases id with
  | nil => exact absurd h (by decide)
  | cons c rest =>
    simp only [Protocol.validRequestId, Bool.and_eq_true, decide_eq_true_eq,
      List.all_eq_true] at h
    obtain ⟨⟨hc, hlen⟩, hrest⟩ := h
    obtain ⟨b, hencode, hb⟩ := exists_byte_of_isAlphanum hc
    obtain ⟨hbytes, hall⟩ := encode_idChars hrest
    rw [Utf8.encode_cons, hencode]
    refine safeStem_iff.2 ⟨?_, hb, fun d hd => ?_⟩
    · rw [List.singleton_append, List.length_cons, hbytes]
      omega
    · rcases List.mem_cons.1 hd with rfl | hd
      · simp [Net.idByte, hb]
      · exact hall d hd

theorem nameByte_of_idByte {b : UInt8} (h : Net.idByte b = true) (hne : b ≠ 58) :
    nameByte b = true := by
  unfold Net.idByte at h
  unfold nameByte
  simp only [Bool.or_eq_true, beq_iff_eq] at h ⊢
  tauto

/-- A stem with a suffix of harmless bytes is the base of a file name when
it has no colon and is short enough. -/
theorem baseName_append_iff (hs : safeStem (.str s) = some s)
    (htail : ∀ b ∈ tail, nameByte b = true) :
    baseName (s ++ tail) = true ↔ 58 ∉ s ∧ s.length + tail.length ≤ 161 := by
  obtain ⟨-, hhead, hall⟩ := safeStem_iff.1 hs
  cases s with
  | nil => exact absurd hhead (by decide)
  | cons b rest =>
    have hb : Bytes.isAlnum b = true := hhead
    have hb58 : b ≠ 58 := by
      rintro rfl
      exact absurd hb (by decide)
    simp only [baseName, List.cons_append, hb, Bool.true_and, Bool.and_eq_true, List.all_eq_true,
      decide_eq_true_eq, List.length_append, List.length_cons]
    constructor
    · rintro ⟨hlen, hnames⟩
      refine ⟨fun hcolon => ?_, by omega⟩
      rcases List.mem_cons.1 hcolon with hcolon | hcolon
      · exact hb58 hcolon.symm
      · exact absurd (hnames 58 (List.mem_append_left _ hcolon)) (by decide)
    · rintro ⟨hcolon, hlen⟩
      refine ⟨by omega, fun c hc => ?_⟩
      rcases List.mem_append.1 hc with hc | hc
      · refine nameByte_of_idByte (hall c (List.mem_cons_of_mem b hc)) ?_
        rintro rfl
        exact hcolon (List.mem_cons_of_mem b hc)
      · exact htail c hc

/-- **The writer's verdict on a file of a stem.** -/
theorem bridgePath_stem (hs : safeStem (.str s) = some s) (hchannel : channel ∈ channels)
    (hextension : extension ∈ extensions) (htail : ∀ b ∈ tail, nameByte b = true) :
    (bridgePath cache (path channel (s ++ tail ++ 46 :: extension))).isSome = true ↔
      58 ∉ s ∧ s.length + tail.length ≤ 161 ∧
        Bytes.Single 46 (s ++ tail ++ 46 :: extension) := by
  have hplain : ∀ e ∈ extensions, 47 ∉ e ∧ 92 ∉ e ∧ e.length ≤ 5 := by decide
  obtain ⟨hslash, hback, hlen⟩ := hplain extension hextension
  have havoid : ∀ c : UInt8, Net.idByte c = false → nameByte c = false → c ≠ 46 →
      c ∉ extension → c ∉ s ++ tail ++ 46 :: extension := by
    intro c hid hname hdot hext hmem
    rcases List.mem_append.1 hmem with hmem | hmem
    · rcases List.mem_append.1 hmem with hmem | hmem
      · rw [(safeStem_iff.1 hs).2.2 c hmem] at hid
        exact absurd hid (by decide)
      · rw [htail c hmem] at hname
        exact absurd hname (by decide)
    · rcases List.mem_cons.1 hmem with hmem | hmem
      · exact hdot hmem
      · exact hext hmem
  have hnoslash := havoid 47 (by decide) (by decide) (by decide) hslash
  have hnoback := havoid 92 (by decide) (by decide) (by decide) hback
  have hchlen : channel.length ≤ 10 := (channel_spec hchannel).2.2.2.1
  rw [bridgePath_path hchannel hnoslash, fileName_append hextension,
    baseName_append_iff hs htail]
  simp only [List.length_append, List.length_cons]
  constructor
  · rintro ⟨-, -, hsingle, hcolon, hbase⟩
    exact ⟨hcolon, hbase, hsingle⟩
  · rintro ⟨hcolon, hbase, hsingle⟩
    exact ⟨by omega, hnoback, hsingle, hcolon, hbase⟩

/-! ## Which names pass, and which two stems share -/

/-- The names besides its own that a stem is archived under at one of the
stamps. -/
def Suffixed (stamps : List Stamp) (s base : Bytes) : Prop :=
  ∃ stamp ∈ stamps, base = s ++ Bytes.lit ".processed" ∨ base = targetStem s stamp ∨
    base = targetStem s stamp ++ Bytes.lit ".reason"

/-- `"-" .. suffix`. -/
def Stamp.suffix (stamp : Stamp) : Bytes :=
  Bytes.lit "-" ++ (Bytes.decimal stamp.time ++ Bytes.lit "-" ++ Bytes.decimal stamp.sequence)

theorem targetStem_eq (s : Bytes) (stamp : Stamp) : targetStem s stamp = s ++ stamp.suffix := by
  simp only [targetStem, Stamp.suffix, List.append_assoc]

theorem lit_dash : Bytes.lit "-" = [45] := by decide

theorem Stamp.length_suffix (stamp : Stamp) : stamp.suffix.length =
    2 + (Bytes.decimal stamp.time).length + (Bytes.decimal stamp.sequence).length := by
  simp only [Stamp.suffix, lit_dash, List.length_append, List.length_singleton]
  omega

theorem notMem_decimal {b : UInt8} (hb : Bytes.isDigit b = false) (n : ℕ) :
    b ∉ Bytes.decimal n := by
  intro hmem
  rw [Bytes.isDigit_of_mem_decimal hmem] at hb
  exact absurd hb (by decide)

/-- The bytes of a stamp are dashes and digits. -/
theorem mem_suffix {b : UInt8} (h : b ∈ stamp.suffix) : b = 45 ∨ Bytes.isDigit b = true := by
  simp only [Stamp.suffix, lit_dash, List.mem_append, List.mem_singleton] at h
  rcases h with h | (h | h) | h
  · exact Or.inl h
  · exact Or.inr (Bytes.isDigit_of_mem_decimal h)
  · exact Or.inl h
  · exact Or.inr (Bytes.isDigit_of_mem_decimal h)

theorem nameByte_suffix : ∀ b ∈ stamp.suffix, nameByte b = true := by
  intro b hb
  rcases mem_suffix hb with rfl | hdigit
  · decide
  · simp [nameByte, Bytes.isAlnum, hdigit]

theorem dot_notMem_suffix : 46 ∉ stamp.suffix := by
  intro hb
  rcases mem_suffix hb with hdash | hdigit
  · exact absurd hdash (by decide)
  · exact absurd hdigit (by decide)

/-- **A copy's name determines its stem**: it is what stands before the
last two dashes. -/
theorem targetStem_inj (h : targetStem s stamp = targetStem t stamp') : s = t := by
  have hsplit : ∀ (u : Bytes) (st : Stamp), targetStem u st =
      (u ++ 45 :: Bytes.decimal st.time) ++ 45 :: Bytes.decimal st.sequence := by
    intro u st
    simp [targetStem, lit_dash]
  have hdash : ∀ n, (45 : UInt8) ∉ Bytes.decimal n := notMem_decimal (by decide)
  rw [hsplit, hsplit] at h
  obtain ⟨hfront, -⟩ := Bytes.append_cons_inj_of_notMem_right (hdash _) (hdash _) h
  exact (Bytes.append_cons_inj_of_notMem_right (hdash _) (hdash _) hfront).1

/-- A copy's name ends in a digit. -/
theorem exists_digit (s : Bytes) (stamp : Stamp) :
    ∃ u d, targetStem s stamp = u ++ [d] ∧ Bytes.isDigit d = true := by
  have hne : Bytes.decimal stamp.sequence ≠ [] := by
    unfold Bytes.decimal
    rw [ne_eq, List.map_eq_nil_iff]
    exact Nat.toDigits_ne_nil
  refine ⟨s ++ Bytes.lit "-" ++ (Bytes.decimal stamp.time ++ Bytes.lit "-") ++
    (Bytes.decimal stamp.sequence).dropLast, (Bytes.decimal stamp.sequence).getLast hne, ?_,
    Bytes.isDigit_of_mem_decimal (List.getLast_mem hne)⟩
  simp [targetStem, List.dropLast_append_getLast]

/-- It is no name with a fixed suffix that ends otherwise. -/
theorem targetStem_ne {front : Bytes} {d : UInt8} (hd : Bytes.isDigit d = false) (u : Bytes) :
    targetStem s stamp ≠ u ++ (front ++ [d]) := by
  obtain ⟨v, e, hv, he⟩ := exists_digit s stamp
  rw [hv, ← List.append_assoc]
  intro h
  obtain ⟨-, hlast⟩ := List.append_inj' h rfl
  rw [List.singleton_inj.1 hlast, hd] at he
  exact absurd he (by decide)

/-- **Two stems share a name only where one is a suffixed form of the
other.** -/
theorem suffixed_of_shared {shared : Bytes} (hne : s ≠ t)
    (hs : shared = s ∨ Suffixed stamps s shared) (ht : shared = t ∨ Suffixed stamps t shared) :
    Suffixed stamps s t ∨ Suffixed stamps t s := by
  have hprocessed : Bytes.lit ".processed" = Bytes.lit ".processe" ++ [100] := by decide
  have hreason : Bytes.lit ".reason" = Bytes.lit ".reaso" ++ [110] := by decide
  rcases hs with rfl | hs
  · rcases ht with rfl | ht
    · exact absurd rfl hne
    · exact Or.inr ht
  rcases ht with rfl | ht
  · exact Or.inl hs
  -- two suffixed forms are equal only for one stem
  exfalso
  obtain ⟨stamp, -, hs⟩ := hs
  obtain ⟨stamp', -, ht⟩ := ht
  rcases hs with rfl | rfl | rfl
  · rcases ht with ht | ht | ht
    · exact hne (List.append_cancel_right ht)
    · rw [hprocessed] at ht
      exact targetStem_ne (by decide) s ht.symm
    · rw [hprocessed, hreason, ← List.append_assoc, ← List.append_assoc] at ht
      exact absurd (List.append_inj' ht rfl).2 (by decide)
  · rcases ht with ht | ht | ht
    · rw [hprocessed] at ht
      exact targetStem_ne (by decide) t ht
    · exact hne (targetStem_inj ht)
    · rw [hreason] at ht
      exact targetStem_ne (by decide) _ ht
  · rcases ht with ht | ht | ht
    · rw [hprocessed, hreason, ← List.append_assoc, ← List.append_assoc] at ht
      exact absurd (List.append_inj' ht rfl).2 (by decide)
    · rw [hreason] at ht
      exact targetStem_ne (by decide) _ ht.symm
    · exact hne (targetStem_inj (List.append_cancel_right ht))

/-- **What a call writes**: files in the channels, with one of the three
extensions, under the stem or a suffixed form of it. -/
theorem exists_base_of_mem_paths {w : Write} (hs : safeStem (.str w.stem) = some w.stem)
    (hw : w.Within stamps) {p : Bytes} (hp : p ∈ w.paths) :
    ∃ channel ∈ channels, ∃ extension ∈ extensions, ∃ base,
      (base = w.stem ∨ Suffixed stamps w.stem base) ∧
        p = path channel (base ++ 46 :: extension) := by
  have hjson : Bytes.lit ".json" = 46 :: Bytes.lit "json" := by decide
  have hready : Bytes.lit ".ready" = 46 :: Bytes.lit "ready" := by decide
  have hdone : Bytes.lit ".done" = 46 :: Bytes.lit "done" := by decide
  have hreason : Bytes.lit ".reason.json" = Bytes.lit ".reason" ++ 46 :: Bytes.lit "json" := by
    decide
  have hprocessed : Bytes.lit ".processed.json" =
      Bytes.lit ".processed" ++ 46 :: Bytes.lit "json" := by decide
  have hextensions : Bytes.lit "json" ∈ extensions ∧ Bytes.lit "ready" ∈ extensions ∧
      Bytes.lit "done" ∈ extensions := by decide
  obtain ⟨ejson, eready, edone⟩ := hextensions
  cases w with
  | publish channel stem =>
    have hs : safeStem (.str stem) = some stem := hs
    simp only [Write.paths, hs] at hp
    split at hp
    · rename_i hchannel
      simp only [List.mem_cons, List.not_mem_nil, or_false] at hp
      refine ⟨channel, List.contains_iff_mem.1 hchannel, ?_⟩
      rcases hp with rfl | rfl
      · exact ⟨_, ejson, stem, Or.inl rfl, by rw [hjson]⟩
      · exact ⟨_, eready, stem, Or.inl rfl, by rw [hready]⟩
    · exact absurd hp (by simp)
  | publishRuntime stem =>
    have hs : safeStem (.str stem) = some stem := hs
    simp only [Write.paths, hs, List.mem_singleton] at hp
    have hruntime : Bytes.lit "runtime" ∈ channels := by decide
    exact ⟨_, hruntime, _, ejson, stem, Or.inl rfl, by rw [hp, hjson]⟩
  | archiveReady channel stem destination stamp =>
    have hs : safeStem (.str stem) = some stem := hs
    have hw : stamp ∈ stamps := hw
    have hdestination : destination.channel ∈ channels := by
      cases destination <;> decide
    simp only [Write.paths, hs] at hp
    split at hp
    · rename_i hchannel
      have hchannel := List.contains_iff_mem.1 hchannel
      simp only [List.mem_cons, List.not_mem_nil, or_false] at hp
      rcases hp with rfl | rfl | rfl | rfl | rfl
      · exact ⟨_, hdestination, _, ejson, targetStem stem stamp,
          Or.inr ⟨stamp, hw, Or.inr (Or.inl rfl)⟩, by rw [hjson]⟩
      · exact ⟨_, hdestination, _, eready, targetStem stem stamp,
          Or.inr ⟨stamp, hw, Or.inr (Or.inl rfl)⟩, by rw [hready]⟩
      · exact ⟨_, hdestination, _, ejson, targetStem stem stamp ++ Bytes.lit ".reason",
          Or.inr ⟨stamp, hw, Or.inr (Or.inr rfl)⟩, by rw [hreason, List.append_assoc]⟩
      · exact ⟨_, hchannel, _, edone, stem, Or.inl rfl, by rw [hdone]⟩
      · exact ⟨_, hchannel, _, ejson, stem ++ Bytes.lit ".processed",
          Or.inr ⟨stamp, hw, Or.inl rfl⟩, by rw [hprocessed, List.append_assoc]⟩
    · exact absurd hp (by simp)

/-- A dotted part may follow what a dot may follow. -/
theorem single_dot {u x : Bytes} (hu : Bytes.Single 46 (u ++ [46]))
    (hx : Bytes.Single 46 (46 :: x)) : Bytes.Single 46 (u ++ 46 :: x) := by
  obtain ⟨hsingle, -, hmeet⟩ := Bytes.single_append.1 hu
  exact Bytes.single_append.2 ⟨hsingle, hx, fun h => hmeet ⟨h.1, rfl⟩⟩

/-- A dot followed by bytes without one. -/
theorem single_cons_dot {x : Bytes} (h : 46 ∉ x) : Bytes.Single 46 (46 :: x) := by
  have hone : Bytes.Single 46 [46] := by
    rw [Bytes.single_iff]
    decide
  have hcons : Bytes.Single 46 ([46] ++ x) :=
    Bytes.single_append.2 ⟨hone, Bytes.single_of_notMem h,
      fun hmeet => h (List.mem_of_head? hmeet.2)⟩
  exact hcons

/-- No colon, and no dot before another one or at the end. -/
def Clean (s : Bytes) : Prop := 58 ∉ s ∧ ¬ Bytes.lit ".." <:+: s ++ Bytes.lit "."

/-- The copies made at these stamps have names that are short enough. -/
def Fits (stamps : List Stamp) (s : Bytes) : Prop :=
  ∀ stamp ∈ stamps,
    s.length + (Bytes.decimal stamp.time).length + (Bytes.decimal stamp.sequence).length ≤ 152

theorem clean_iff : Clean s ↔ 58 ∉ s ∧ Bytes.Single 46 (s ++ [46]) := by
  have hone : Bytes.lit "." = [46] := by decide
  have htwo : Bytes.lit ".." = [46, 46] := by decide
  rw [Clean, hone, htwo, Bytes.single_iff]

/-- The writer accepts every file of a clean stem. -/
theorem accepted_of_clean (hs : safeStem (.str s) = some s) (hclean : Clean s)
    (hfits : Fits stamps s) (hchannel : channel ∈ channels) (hextension : extension ∈ extensions)
    (hbase : base = s ∨ Suffixed stamps s base) :
    (bridgePath cache (path channel (base ++ 46 :: extension))).isSome = true := by
  obtain ⟨hcolon, hdots⟩ := clean_iff.1 hclean
  have hlen := (safeStem_iff.1 hs).1
  have hext := single_cons_dot (notMem_dot_of_mem hextension)
  have hprocessed : (Bytes.lit ".processed").length = 10 ∧
      Bytes.lit ".processed" = 46 :: Bytes.lit "processed" ∧
      (∀ b ∈ Bytes.lit ".processed", nameByte b = true) ∧ 46 ∉ Bytes.lit "processed" ∧
      (46 :: Bytes.lit "processed").getLast? = some 100 := by decide +kernel
  have hreason : (Bytes.lit ".reason").length = 7 ∧
      Bytes.lit ".reason" = 46 :: Bytes.lit "reason" ∧
      (∀ b ∈ Bytes.lit ".reason", nameByte b = true) ∧ 46 ∉ Bytes.lit "reason" ∧
      (46 :: Bytes.lit "reason").getLast? = some 110 := by decide +kernel
  have hcopy : ∀ stamp : Stamp, Bytes.Single 46 (s ++ stamp.suffix ++ [46]) := by
    intro stamp
    obtain ⟨d, rest, hd, hdot⟩ : ∃ d rest, stamp.suffix = d :: rest ∧ d ≠ 46 :=
      ⟨45, _, by rw [Stamp.suffix, lit_dash]; rfl, by decide⟩
    have hfront : Bytes.Single 46 (s ++ stamp.suffix) := by
      refine Bytes.single_append.2 ⟨(Bytes.single_append.1 hdots).1,
        Bytes.single_of_notMem dot_notMem_suffix, fun hmeet => ?_⟩
      rw [hd, List.head?_cons] at hmeet
      exact hdot (Option.some_inj.1 hmeet.2)
    refine Bytes.single_append.2 ⟨hfront, single_cons_dot (by simp), fun hmeet => ?_⟩
    have hlast := List.mem_of_getLast? hmeet.1
    rw [hd, List.getLast?_append_of_ne_nil _ (by simp), ← hd] at hmeet
    exact dot_notMem_suffix (List.mem_of_getLast? hmeet.1)
  -- each base is the stem with a suffix, and the dots of the suffix stand alone
  rcases hbase with rfl | ⟨stamp, hstamp, rfl | rfl | rfl⟩
  · have hnil : ∀ u : Bytes, u ++ 46 :: extension = u ++ [] ++ 46 :: extension := fun u => by
      rw [List.append_nil]
    rw [hnil, bridgePath_stem hs hchannel hextension (by simp), ← hnil, List.length_nil]
    exact ⟨hcolon, by omega, single_dot hdots hext⟩
  · rw [bridgePath_stem hs hchannel hextension hprocessed.2.2.1, hprocessed.1, hprocessed.2.1]
    refine ⟨hcolon, by omega, single_dot ?_ hext⟩
    have hword := single_dot hdots (single_cons_dot hprocessed.2.2.2.1)
    refine Bytes.single_append.2 ⟨hword, single_cons_dot (by simp), fun hmeet => ?_⟩
    rw [List.getLast?_append_of_ne_nil _ (by simp), hprocessed.2.2.2.2] at hmeet
    exact absurd hmeet.1 (by decide)
  · rw [targetStem_eq, bridgePath_stem hs hchannel hextension nameByte_suffix,
      Stamp.length_suffix]
    have := hfits stamp hstamp
    exact ⟨hcolon, by omega, single_dot (hcopy stamp) hext⟩
  · have htail : ∀ b ∈ stamp.suffix ++ Bytes.lit ".reason", nameByte b = true := by
      intro b hb
      rcases List.mem_append.1 hb with hb | hb
      · exact nameByte_suffix b hb
      · exact hreason.2.2.1 b hb
    rw [targetStem_eq, List.append_assoc s, bridgePath_stem hs hchannel hextension htail,
      List.length_append, Stamp.length_suffix, hreason.1, hreason.2.1]
    have := hfits stamp hstamp
    refine ⟨hcolon, by omega, ?_⟩
    rw [← List.append_assoc s]
    refine single_dot ?_ hext
    have hword := single_dot (hcopy stamp) (single_cons_dot hreason.2.2.2.1)
    refine Bytes.single_append.2 ⟨hword, single_cons_dot (by simp), fun hmeet => ?_⟩
    rw [List.getLast?_append_of_ne_nil _ (by simp), hreason.2.2.2.2] at hmeet
    exact absurd hmeet.1 (by decide)

/-- The names of a stem that the writer accepts are those of a clean one
whose copies fit. -/
theorem clean_of_accepted (hs : safeStem (.str s) = some s)
    (h : ∀ w : Write, w.stem = s → w.Within stamps → ∀ p ∈ w.paths,
      (bridgePath cache p).isSome = true) : Clean s ∧ Fits stamps s := by
  have hstate : channels.contains (Bytes.lit "state") = true := by decide
  have hjson : Bytes.lit ".json" = 46 :: Bytes.lit "json" ∧ Bytes.lit "json" ∈ extensions ∧
      Bytes.lit ".reason.json" = Bytes.lit ".reason" ++ 46 :: Bytes.lit "json" ∧
      (Bytes.lit ".reason").length = 7 ∧ (∀ b ∈ Bytes.lit ".reason", nameByte b = true) ∧
      Bytes.lit "archive" ∈ channels := by decide +kernel
  obtain ⟨hlit, hextension, hreason, hlength, hbytes, harchive⟩ := hjson
  constructor
  · have hpath : path (Bytes.lit "state") (s ++ [] ++ 46 :: Bytes.lit "json") ∈
        (Write.publish (Bytes.lit "state") s).paths := by
      simp only [Write.paths, hs, hstate, if_true, List.append_nil, ← hlit]
      exact List.mem_cons_self
    have haccepted := h (.publish (Bytes.lit "state") s) rfl trivial _ hpath
    rw [bridgePath_stem hs (List.contains_iff_mem.1 hstate) hextension (by simp)] at haccepted
    obtain ⟨hcolon, -, hsingle⟩ := haccepted
    have hdot : s ++ [] ++ 46 :: Bytes.lit "json" = s ++ [46] ++ Bytes.lit "json" := by simp
    rw [hdot] at hsingle
    exact clean_iff.2 ⟨hcolon, (Bytes.single_append.1 hsingle).1⟩
  · intro stamp hstamp
    have hpath : path (Bytes.lit "archive")
        (s ++ (stamp.suffix ++ Bytes.lit ".reason") ++ 46 :: Bytes.lit "json") ∈
        (Write.archiveReady (Bytes.lit "state") s .archive stamp).paths := by
      simp only [Write.paths, hs, hstate, if_true, targetStem_eq, hreason, List.append_assoc]
      exact List.mem_cons_of_mem _ (List.mem_cons_of_mem _ List.mem_cons_self)
    have haccepted := h (.archiveReady (Bytes.lit "state") s .archive stamp) rfl hstamp _ hpath
    have htail : ∀ b ∈ stamp.suffix ++ Bytes.lit ".reason", nameByte b = true := by
      intro b hb
      rcases List.mem_append.1 hb with hb | hb
      · exact nameByte_suffix b hb
      · exact hbytes b hb
    rw [bridgePath_stem hs harchive hextension htail, List.length_append, Stamp.length_suffix,
      hlength] at haccepted
    have := haccepted.2.1
    omega

/-- A suffixed form of a stem that is itself a stem is written for both. -/
theorem shared_of_suffixed (hs : safeStem (.str s) = some s) (ht : safeStem (.str t) = some t)
    (h : Suffixed stamps s t) :
    ∃ w w' : Write, w.stem = s ∧ w'.stem = t ∧ w.Within stamps ∧ w'.Within stamps ∧
      ∃ p ∈ w.paths, p ∈ w'.paths := by
  have hstate : channels.contains (Bytes.lit "state") = true ∧
      channels.contains (Bytes.lit "archive") = true := by decide
  have hlits : Bytes.lit ".processed.json" = Bytes.lit ".processed" ++ Bytes.lit ".json" ∧
      Bytes.lit ".reason.json" = Bytes.lit ".reason" ++ Bytes.lit ".json" := by decide
  obtain ⟨stamp, hstamp, h⟩ := h
  have hpublish : ∀ channel, channels.contains channel = true →
      path channel (t ++ Bytes.lit ".json") ∈ (Write.publish channel t).paths := by
    intro channel hchannel
    simp only [Write.paths, ht, hchannel, if_true]
    exact List.mem_cons_self
  have hwithin : (Write.archiveReady (Bytes.lit "state") s .archive stamp).Within stamps := hstamp
  have harchive : (Write.archiveReady (Bytes.lit "state") s .archive stamp).paths =
      [path (Bytes.lit "archive") (targetStem s stamp ++ Bytes.lit ".json"),
        path (Bytes.lit "archive") (targetStem s stamp ++ Bytes.lit ".ready"),
        path (Bytes.lit "archive") (targetStem s stamp ++ Bytes.lit ".reason.json"),
        path (Bytes.lit "state") (s ++ Bytes.lit ".done"),
        path (Bytes.lit "state") (s ++ Bytes.lit ".processed.json")] := by
    simp only [Write.paths, hs, hstate.1, if_true]
    rfl
  rcases h with rfl | rfl | rfl
  · refine ⟨_, .publish (Bytes.lit "state") _, rfl, rfl, hwithin, trivial, _, ?_,
      hpublish _ hstate.1⟩
    rw [harchive, hlits.1, List.append_assoc]
    simp
  · refine ⟨_, .publish (Bytes.lit "archive") _, rfl, rfl, hwithin, trivial, _, ?_,
      hpublish _ hstate.2⟩
    rw [harchive]
    simp
  · refine ⟨_, .publish (Bytes.lit "archive") _, rfl, rfl, hwithin, trivial, _, ?_,
      hpublish _ hstate.2⟩
    rw [harchive, hlits.2, List.append_assoc]
    simp

/-- The channel and the name of a path. -/
theorem path_inj {channel' name name' : Bytes} (hchannel : channel ∈ channels)
    (hchannel' : channel' ∈ channels) (h : path channel name = path channel' name') :
    name = name' := by
  have hslash : Bytes.lit "/" = [47] := by decide
  simp only [path, List.append_assoc, hslash, List.singleton_append] at h
  have hrest := List.append_cancel_left h
  rw [List.cons_append, List.cons_append, List.cons.injEq] at hrest
  exact (Bytes.append_cons_inj_of_notMem (channel_spec hchannel).1 (channel_spec hchannel').1
    hrest.2).2

/-- **When the names of the bridge agree.** Every identifier of the agent
is a stem. All files of a stem are accepted by the writer, and none is
also a file of another one, exactly when the stem has no colon, no double
or final dot, and copies that fit, and neither of the two stems is a
suffixed form of the other. -/
theorem names_agree_iff (cache : List Bytes) {s t : Bytes} (hs : safeStem (.str s) = some s)
    (ht : safeStem (.str t) = some t) (hne : s ≠ t) (stamps : List Stamp) :
    (∀ id, Protocol.validRequestId id = true →
      safeStem (.str (Utf8.encode id)) = some (Utf8.encode id)) ∧
    ((∀ w : Write, w.stem = s → w.Within stamps → ∀ p ∈ w.paths,
        (bridgePath cache p).isSome = true) ∧
      (∀ w w' : Write, w.stem = s → w'.stem = t → w.Within stamps → w'.Within stamps →
        ∀ p ∈ w.paths, p ∉ w'.paths) ↔
      Clean s ∧ Fits stamps s ∧ ¬ Suffixed stamps s t ∧ ¬ Suffixed stamps t s) := by
  refine ⟨fun id => safeStem_of_validRequestId, ?_⟩
  constructor
  · rintro ⟨haccepted, hapart⟩
    obtain ⟨hclean, hfits⟩ := clean_of_accepted hs haccepted
    refine ⟨hclean, hfits, fun h => ?_, fun h => ?_⟩
    · obtain ⟨w, w', hw, hw', hin, hin', p, hp, hp'⟩ := shared_of_suffixed hs ht h
      exact hapart w w' hw hw' hin hin' p hp hp'
    · obtain ⟨w, w', hw, hw', hin, hin', p, hp, hp'⟩ := shared_of_suffixed ht hs h
      exact hapart w' w hw' hw hin' hin p hp' hp
  · rintro ⟨hclean, hfits, hst, hts⟩
    constructor
    · rintro w rfl hw p hp
      obtain ⟨channel, hchannel, extension, hextension, base, hbase, rfl⟩ :=
        exists_base_of_mem_paths hs hw hp
      exact accepted_of_clean hs hclean hfits hchannel hextension hbase
    · rintro w w' rfl rfl hw hw' p hp hp'
      obtain ⟨channel, hchannel, extension, hextension, base, hbase, rfl⟩ :=
        exists_base_of_mem_paths hs hw hp
      obtain ⟨channel', hchannel', extension', hextension', base', hbase', heq⟩ :=
        exists_base_of_mem_paths ht hw' hp'
      obtain ⟨rfl, -⟩ := Bytes.append_cons_inj_of_notMem_right (notMem_dot_of_mem hextension)
        (notMem_dot_of_mem hextension') (path_inj hchannel hchannel' heq)
      rcases suffixed_of_shared hne hbase hbase' with h | h
      · exact hst h
      · exact hts h

/-- Two plain request ids. -/
theorem names_agree_iff_requests :
    let s := Bytes.lit "req-1"
    let t := Bytes.lit "req-2"
    let stamps : List Stamp := [⟨1700000000, 1⟩]
    ((∀ w : Write, w.stem = s → w.Within stamps → ∀ p ∈ w.paths,
        (bridgePath [] p).isSome = true) ∧
      (∀ w w' : Write, w.stem = s → w'.stem = t → w.Within stamps → w'.Within stamps →
        ∀ p ∈ w.paths, p ∉ w'.paths) ↔
      Clean s ∧ Fits stamps s ∧ ¬ Suffixed stamps s t ∧ ¬ Suffixed stamps t s) := by
  intro s t stamps
  have hs : safeStem (.str s) = some s := safeStem_iff.2 (by decide +kernel)
  have ht : safeStem (.str t) = some t := safeStem_iff.2 (by decide +kernel)
  exact (names_agree_iff [] hs ht (by decide) stamps).2

/-- **The validators do not nest, and two stems share a file.** The
response to the request `goblin:1` has a path the writer refuses, and
archiving the command `a` writes the file of the command `a.processed`. -/
theorem colon_refused :
    (Protocol.validRequestId (PyText.lit "goblin:1") = true ∧
      safeStem (.str (Bytes.lit "goblin:1")) = some (Bytes.lit "goblin:1") ∧
      ∃ p ∈ (Write.publish (Bytes.lit "responses") (Bytes.lit "goblin:1")).paths,
        bridgePath [] p = none) ∧
    (safeStem (.str (Bytes.lit "a")) = some (Bytes.lit "a") ∧
      safeStem (.str (Bytes.lit "a.processed")) = some (Bytes.lit "a.processed") ∧
      ∃ p ∈ (Write.archiveReady (Bytes.lit "commands") (Bytes.lit "a") .archive
          ⟨1700000000, 1⟩).paths,
        p ∈ (Write.publish (Bytes.lit "commands") (Bytes.lit "a.processed")).paths) := by
  have hcolon : safeStem (.str (Bytes.lit "goblin:1")) = some (Bytes.lit "goblin:1") :=
    safeStem_iff.2 (by decide +kernel)
  have ha : safeStem (.str (Bytes.lit "a")) = some (Bytes.lit "a") :=
    safeStem_iff.2 (by decide +kernel)
  have hprocessed : safeStem (.str (Bytes.lit "a.processed")) = some (Bytes.lit "a.processed") :=
    safeStem_iff.2 (by decide +kernel)
  have hchannels : channels.contains (Bytes.lit "responses") = true ∧
      channels.contains (Bytes.lit "commands") = true := by decide
  have hname : Bytes.lit "a.processed" ++ Bytes.lit ".json" =
      Bytes.lit "a" ++ Bytes.lit ".processed.json" := by decide
  refine ⟨⟨by decide, hcolon, ?_⟩, ha, hprocessed, ?_⟩
  · refine ⟨path (Bytes.lit "responses") (Bytes.lit "goblin:1" ++ Bytes.lit ".json"), ?_, ?_⟩
    · simp only [Write.paths, hcolon, hchannels.1, if_true]
      exact List.mem_cons_self
    · decide
  · refine ⟨path (Bytes.lit "commands") (Bytes.lit "a.processed" ++ Bytes.lit ".json"), ?_, ?_⟩
    · simp only [Write.paths, ha, hchannels.2, if_true, hname]
      simp
    · simp only [Write.paths, hprocessed, hchannels.2, if_true]
      exact List.mem_cons_self

end IPC

end GoblinZomboid
