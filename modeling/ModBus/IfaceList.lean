import ModBus.Orderly

/-! The list of interfaces that one fabric sends another: what is printed into it
and what is split out of it. -/

namespace ModBus

open Libc Czmq Transition

def pathTriple (path : String) : Option (String × String × UInt64) :=
  match strtok ':' path with
  | mod :: func :: ver :: _ => some (mod, func, (atoi ver).toInt64.toUInt64)
  | _ => none

def provideTriples (fab : Fabric) : List (String × String × UInt64) → Proxy → Except Fault Proxy
  | [], p => .ok p
  | (mod, func, ver) :: triples, p =>
      match provideGlobal fab mod func ver p with
      | .error fault => .error fault
      | .ok p => provideTriples fab triples p

def Iface.triple (iface : Iface) : String × String × UInt64 := (iface.mod, iface.func, iface.ver)

def offered (heap : Heap) (ifaces : List Addr) : List (String × String × UInt64) :=
  (ifaces.filter fun iface => decide (0 < (heap iface).idLocalList.size)).map
    fun iface => (heap iface).triple

def RoundTrips (p : Proxy) (actionid : String) : Prop :=
  ∃ object, messageIfacelistResponse p.ifaces p.heap actionid = .ok object ∧
    ∀ message : Message, message.object = object →
      ∃ paths, messageGetIfaceList message = .ok (some paths) ∧
        paths.filterMap pathTriple = offered p.heap p.ifaces.items

/-- The path of the interface can be told apart again: it fits the buffer, its
names are tokens, and its version is an `int`, however it is signed. -/
structure Iface.Representable (iface : Iface) : Prop where
  mod : iface.mod ≠ "" ∧ ':' ∉ iface.mod.toList
  func : iface.func ≠ "" ∧ ':' ∉ iface.func.toList
  ver : iface.ver.toNat < 2 ^ 31 ∨ 2 ^ 64 - 2 ^ 31 ≤ iface.ver.toNat
  fits : (ifacePath iface).length < 256

def PlainNames (p : Proxy) : Prop :=
  ∀ iface ∈ p.ifaces.items, Plain (p.heap iface).mod ∧ Plain (p.heap iface).func

section

variable {conf : Config} {p q : Proxy} {heap : Heap} {ifaces : List Addr} {iface : Iface}
  {actionid : String}

theorem providePath_eq (fab : Fabric) (path : String) (p : Proxy) :
    providePath fab path p =
      match pathTriple path with
      | some (mod, func, ver) => provideGlobal fab mod func ver p
      | none => .ok p := by
  unfold providePath pathTriple
  rcases strtok ':' path with _ | ⟨mod, _ | ⟨func, _ | ⟨ver, rest⟩⟩⟩ <;> rfl

theorem providePaths_eq (fab : Fabric) (paths : List String) (p : Proxy) :
    providePaths fab paths p = provideTriples fab (paths.filterMap pathTriple) p := by
  induction paths generalizing p with
  | nil => rfl
  | cons path paths ih =>
      rw [providePaths, providePath_eq, List.filterMap_cons]
      cases pathTriple path with
      | none => exact ih p
      | some triple =>
          obtain ⟨mod, func, ver⟩ := triple
          simp only [provideTriples]
          cases provideGlobal fab mod func ver p with
          | error fault => rfl
          | ok middle => exact ih middle

theorem ifacePath_toList (iface : Iface) :
    (ifacePath iface).toList = iface.mod.toList ++ ':' ::
      (iface.func.toList ++ ':' :: (decimal iface.ver.toInt64.toInt).toList) := by
  simp [ifacePath]

/-- Names that are tokens are split off again. -/
theorem strtok_ifacePath (mod : iface.mod ≠ "" ∧ ':' ∉ iface.mod.toList)
    (func : iface.func ≠ "" ∧ ':' ∉ iface.func.toList) :
    strtok ':' (ifacePath iface) =
      [iface.mod, iface.func, decimal iface.ver.toInt64.toInt] := by
  have modFull : iface.mod.toList.isEmpty = false := by simpa using mod.1
  have funcFull : iface.func.toList.isEmpty = false := by simpa using func.1
  have verFull : (decimal iface.ver.toInt64.toInt).toList.isEmpty = false := by
    simpa using decimal_ne_empty iface.ver.toInt64.toInt
  rw [strtok, ifacePath_toList, strtokFrom_word mod.2, strtokFrom_word func.2,
    strtokFrom_last (colon_notMem_decimal _)]
  simp [modFull, funcFull, verFull]

theorem pathTriple_ifacePath (iface : Iface) :
    pathTriple (ifacePath iface) = some iface.triple ↔
      (iface.mod ≠ "" ∧ ':' ∉ iface.mod.toList) ∧ (iface.func ≠ "" ∧ ':' ∉ iface.func.toList) ∧
        (iface.ver.toNat < 2 ^ 31 ∨ 2 ^ 64 - 2 ^ 31 ≤ iface.ver.toNat) := by
  constructor
  · intro splits
    have tokens : ∀ word ∈ strtok ':' (ifacePath iface), word ≠ "" ∧ ':' ∉ word.toList := by
      intro word member
      have parts := strtokFrom_tokens List.not_mem_nil member
      exact ⟨parts.1, parts.2.1⟩
    have names : (iface.mod ≠ "" ∧ ':' ∉ iface.mod.toList) ∧
        (iface.func ≠ "" ∧ ':' ∉ iface.func.toList) := by
      rw [pathTriple] at splits
      split at splits
      · rename_i mod func ver rest words
        simp only [Iface.triple, Option.some.injEq, Prod.mk.injEq] at splits
        rw [words] at tokens
        rw [← splits.1, ← splits.2.1]
        exact ⟨tokens mod (by simp), tokens func (by simp)⟩
      · cases splits
    refine ⟨names.1, names.2, (atoi_version iface.ver).mp ?_⟩
    rw [pathTriple, strtok_ifacePath names.1 names.2] at splits
    simpa [Iface.triple] using splits
  · rintro ⟨mod, func, ver⟩
    rw [pathTriple, strtok_ifacePath mod func]
    simp only [Iface.triple, (atoi_version iface.ver).mpr ver]

theorem cString_ifacePath (mod : Plain iface.mod) (func : Plain iface.func) :
    cString (ifacePath iface) = ifacePath iface := by
  apply cString_eq
  rw [ifacePath_toList]
  simp only [List.mem_append, List.mem_cons, not_or]
  exact ⟨mod, by decide, func, by decide, nul_notMem_decimal _⟩

theorem ifacePaths_length {paths : List String} (listed : ifacePaths heap ifaces = .ok paths) :
    paths.length = (offered heap ifaces).length := by
  obtain ⟨_, rfl⟩ := ifacePaths_iff.mp listed
  simp [localPaths, offered]

theorem ifacePaths_split (plain : ∀ iface ∈ ifaces, Plain (heap iface).mod ∧ Plain (heap iface).func) :
    (∃ paths, ifacePaths heap ifaces = .ok paths ∧
        paths.filterMap pathTriple = offered heap ifaces) ↔
      ∀ iface ∈ ifaces, 0 < (heap iface).idLocalList.size → (heap iface).Representable := by
  induction ifaces with
  | nil =>
      refine ⟨fun _ _ member => absurd member List.not_mem_nil, fun _ => ⟨[], rfl, rfl⟩⟩
  | cons iface ifaces ih =>
      have later := ih fun other member => plain other (List.mem_cons_of_mem _ member)
      have named := plain iface List.mem_cons_self
      rw [List.forall_mem_cons]
      by_cases provided : 0 < (heap iface).idLocalList.size
      · have whole := cString_ifacePath named.1 named.2
        have ahead : offered heap (iface :: ifaces) =
            (heap iface).triple :: offered heap ifaces := by
          simp [offered, provided]
        by_cases fits : (ifacePath (heap iface)).length < 256
        · rw [← later, ahead]
          simp only [ifacePaths, provided, fits, if_true, whole, true_imp_iff]
          constructor
          · rintro ⟨paths, listed, splits⟩
            obtain ⟨rest, more, listed⟩ := bind_ok.mp listed
            cases listed
            rw [List.filterMap_cons] at splits
            split at splits
            · have short := List.length_filterMap_le pathTriple rest
              have count := ifacePaths_length more
              have size := congrArg List.length splits
              rw [List.length_cons] at size
              omega
            · rename_i triple first
              obtain ⟨same, others⟩ := List.cons.inj splits
              obtain ⟨mod, func, ver⟩ := (pathTriple_ifacePath (heap iface)).mp (same ▸ first)
              exact ⟨⟨mod, func, ver, fits⟩, rest, more, others⟩
          · rintro ⟨representable, rest, more, others⟩
            have first := (pathTriple_ifacePath (heap iface)).mpr
              ⟨representable.mod, representable.func, representable.ver⟩
            refine ⟨ifacePath (heap iface) :: rest, by rw [more]; rfl, ?_⟩
            rw [List.filterMap_cons, first, others]
        · constructor
          · rintro ⟨paths, listed, _⟩
            simp [ifacePaths, provided, fits] at listed
          · rintro ⟨representable, _⟩
            exact absurd (representable provided).fits fits
      · rw [← later]
        simp [ifacePaths, offered, provided]

theorem roundTrips_iff (plain : PlainNames p) :
    RoundTrips p actionid ↔ ∀ iface ∈ p.ifaces.items,
      0 < (p.heap iface).idLocalList.size → (p.heap iface).Representable := by
  rw [← ifacePaths_split plain]
  constructor
  · rintro ⟨object, packs, reads⟩
    obtain ⟨listed, run, packs⟩ := bind_ok.mp packs
    cases packs
    obtain ⟨paths, read, splits⟩ := reads
      (messageNew 0 0 true "" (packIfaceList listed actionid) "result" actionid) rfl
    obtain ⟨_, rfl⟩ := ifacePaths_iff.mp run
    rw [messageGetIfaceList_packed (localPaths_plain _ _) rfl] at read
    cases read
    exact ⟨_, run, splits⟩
  · rintro ⟨listed, run, splits⟩
    refine ⟨packIfaceList listed actionid, by rw [messageIfacelistResponse, run]; rfl, ?_⟩
    obtain ⟨_, rfl⟩ := ifacePaths_iff.mp run
    intro message object
    exact ⟨_, messageGetIfaceList_packed (localPaths_plain _ _) object, splits⟩

theorem plainNames_rule : RegistryRule PlainNames := by
  have kept : ∀ {mod func : String} {ver : UInt64} {loc glob : CStr → Prop} {iface : Addr}
      {p q : Proxy}, Registry p → Plain mod → Plain func →
      Provided mod func ver loc glob iface p q → PlainNames p → PlainNames q := by
    intro mod func ver loc glob iface p q registry named called provided plain other listed
    have grown : other ∈ p.ifaces.items ∨ other = iface := by
      rcases provided.items with same | more
      · exact Or.inl (same ▸ listed)
      · rw [more] at listed
        simpa using listed
    rcases grown with old | rfl
    · obtain ⟨mod, func, _⟩ := provided.kept other (registry.allocated other old)
      rw [mod, func]
      exact plain other old
    · rw [provided.sameMod, provided.sameFunc]
      exact ⟨named, called⟩
  constructor
  · intro p q ifaces same plain iface listed
    rw [(same iface).mod, (same iface).func]
    exact plain iface (ifaces ▸ listed)
  · intro p q identity name function ver registry named called run plain
    obtain ⟨_, _, _, _, provided⟩ := provideLocal_ok registry run
    exact kept registry named called provided plain
  · intro p q fab mod func ver registry named called run plain
    obtain ⟨_, _, _, _, provided⟩ := provideGlobal_ok registry run
    exact kept registry named.1 called.1 provided plain
  · intro p identity registry plain iface listed
    rw [unlisted_items registry] at listed
    rw [(unlisted_heap registry identity iface).mod,
      (unlisted_heap registry identity iface).func]
    exact plain iface (List.mem_of_mem_filter listed)

theorem plainNames_reaches {guard : Proxy → Env × Event → Prop}
    (reached : Reaches (fabric conf) guard p) : PlainNames p :=
  plainNames_rule.reaches (reaches_registrySystem reached)
    fun _ listed => absurd listed List.not_mem_nil

/-- A reachable registry survives being sent exactly when every interface that
it offers can be told from its path. -/
theorem ifaceList_roundTrip {guard : Proxy → Env × Event → Prop}
    (reached : Reaches (fabric conf) guard p) (actionid : String) :
    RoundTrips p actionid ↔ ∀ iface ∈ p.ifaces.items,
      0 < (p.heap iface).idLocalList.size → (p.heap iface).Representable :=
  roundTrips_iff (plainNames_reaches reached)

theorem ifaceList_roundTrip_introduced :
    RoundTrips (fabricAfter plainConf twoVersions) "list-1" := by
  have reached : Reaches (fabric plainConf) anything (fabricAfter plainConf twoVersions) :=
    fabricAfter_reaches (fun _ _ _ => trivial) (by decide)
  have items : (fabricAfter plainConf twoVersions).ifaces.items = [2, 5] := by decide
  refine (ifaceList_roundTrip reached "list-1").mpr ?_
  rw [items]
  intro iface listed _
  rcases List.mem_cons.mp listed with rfl | listed
  · exact ⟨by decide, by decide, by decide, by decide⟩
  · rw [List.mem_singleton.mp listed]
    exact ⟨by decide, by decide, by decide, by decide⟩

def longVersion : List (Env × Event) := [
  (early, .localMsg (introduceOf worker "mod" 77 [("f", 4294967301)]) "yes")]

theorem ifaceList_garbled :
    ¬ ∀ conf p actionid, Reaches (fabric conf) anything p → RoundTrips p actionid := by
  intro always
  have reached : Reaches (fabric plainConf) anything (fabricAfter plainConf longVersion) :=
    fabricAfter_reaches (fun _ _ _ => trivial) (by decide)
  have told := (roundTrips_iff (plainNames_reaches reached)).mp
    (always plainConf _ "list-1" reached)
  have representable := told 2 (by decide) (by decide)
  exact absurd representable.ver (by decide)

end

end ModBus
