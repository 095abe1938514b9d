import Mathlib.Logic.Function.Basic
import ModBus.Message

/-! `interface.c`: interfaces and the lists of identities that provide them.
Interfaces live on a heap that is never freed; `proxy->ifaces` lists addresses. -/

namespace ModBus

open Libc Czmq

/-- A `char *`: list removal compares addresses, everything else the text. -/
structure CStr where
  addr : Addr
  text : String
  deriving DecidableEq, Repr

structure Iface where
  mod : String
  func : String
  ver : UInt64
  idGlobalList : ZList CStr
  idLocalList : ZList CStr
  deriving Repr

abbrev Heap := Addr → Iface

def blank : Iface := ⟨"", "", 0, ZList.new, ZList.new⟩

def ifaceNew (mod func : String) (ver : UInt64) : Option Iface :=
  if ver = 0 then none else some ⟨mod, func, ver, ZList.new, ZList.new⟩

/-- The autofree list appends its own copy of the name, at the address `copy`. -/
def ifaceAppendGlobal (iface : Iface) (global : CStr) (copy : Addr) : Bool × Iface :=
  let appended := iface.idGlobalList.appendNew (fun cur => decide (cur.text = global.text))
    ⟨copy, global.text⟩
  (appended.1, { iface with idGlobalList := appended.2 })

def ifaceAppendLocal (iface : Iface) (loc : CStr) : Bool × Iface :=
  let appended := iface.idLocalList.appendNew (fun cur => decide (cur.text = loc.text)) loc
  (appended.1, { iface with idLocalList := appended.2 })

def Iface.unlist (iface : Iface) (identity : CStr) : Iface :=
  { iface with
    idGlobalList := iface.idGlobalList.remove fun item => decide (item.addr = identity.addr)
    idLocalList := iface.idLocalList.remove fun item => decide (item.addr = identity.addr) }

def Iface.deserted (iface : Iface) : Bool :=
  iface.idGlobalList.size = 0 && iface.idLocalList.size = 0

def ifaceVisit (identity : CStr) (heap : Heap) (iface : Addr) : Bool × Heap :=
  let left := (heap iface).unlist identity
  (left.deserted, Function.update heap iface left)

def ifaceRemove (ifaces : ZList Addr) (identity : CStr) (heap : Heap) : ZList Addr × Heap :=
  ifaces.sweep (ifaceVisit identity) heap

/-- Every walk over `proxy->ifaces` starts at its head, so the cursor that the
search leaves behind is not kept. -/
def checkInterface (ifaces : ZList Addr) (heap : Heap) (mod func : String) (ver : UInt64) :
    Option Addr :=
  (ifaces.search fun iface =>
    decide ((heap iface).mod = mod ∧ (heap iface).func = func ∧ ver ≤ (heap iface).ver)).1

def ifacePath (iface : Iface) : String :=
  iface.mod ++ ":" ++ iface.func ++ ":" ++ decimal iface.ver.toInt64.toInt

def ifaceDump (iface : Iface) : String :=
  "dump_interface [" ++ ifacePath iface ++ "]" ++
    "locals[" ++ String.join (iface.idLocalList.items.map CStr.text) ++
    "] globals[" ++ String.join (iface.idGlobalList.items.map CStr.text) ++ "]"

def Iface.Printable (iface : Iface) : Prop := (ifaceDump iface).length < 1024

instance (iface : Iface) : Decidable iface.Printable :=
  inferInstanceAs (Decidable ((ifaceDump iface).length < 1024))

def Iface.printed (iface : Iface) : Iface :=
  { iface with
    idLocalList := iface.idLocalList.walk.2
    idGlobalList := iface.idGlobalList.walk.2 }

def ifacePrint (iface : Iface) : Except Fault Iface :=
  if iface.Printable then .ok iface.printed else .error .outOfBounds

def ifacePaths (heap : Heap) : List Addr → Except Fault (List String)
  | [] => .ok []
  | iface :: rest =>
      if 0 < (heap iface).idLocalList.size then
        if (ifacePath (heap iface)).length < 256 then do
          return cString (ifacePath (heap iface)) :: (← ifacePaths heap rest)
        else .error .outOfBounds
      else ifacePaths heap rest

def messageIfacelistResponse (ifaces : ZList Addr) (heap : Heap) (actionid : String) :
    Except Fault Object := do
  return packIfaceList (← ifacePaths heap ifaces.items) actionid

/-! The lists without their cursors, which no invariant depends on. -/

def Iface.locals (iface : Iface) : List CStr := iface.idLocalList.items

def Iface.globals (iface : Iface) : List CStr := iface.idGlobalList.items

structure Iface.Same (iface other : Iface) : Prop where
  mod : other.mod = iface.mod
  func : other.func = iface.func
  ver : other.ver = iface.ver
  locals : other.locals = iface.locals
  globals : other.globals = iface.globals

theorem Iface.Same.refl (iface : Iface) : iface.Same iface := ⟨rfl, rfl, rfl, rfl, rfl⟩

theorem Iface.Same.trans {first second third : Iface} (left : first.Same second)
    (right : second.Same third) : first.Same third :=
  ⟨right.mod.trans left.mod, right.func.trans left.func, right.ver.trans left.ver,
    right.locals.trans left.locals, right.globals.trans left.globals⟩

theorem printed_same (iface : Iface) : iface.Same iface.printed := by
  constructor <;> simp [Iface.printed, Iface.locals, Iface.globals, ZList.walk_eq]

theorem ifacePrint_ok {iface other : Iface} :
    ifacePrint iface = .ok other ↔ iface.Printable ∧ other = iface.printed := by
  unfold ifacePrint
  split
  · rename_i fits
    simp [fits, eq_comm]
  · rename_i long
    simp [long]

theorem ifaceDump_length (iface : Iface) :
    (ifaceDump iface).length = 35 + (ifacePath iface).length +
      ((iface.locals ++ iface.globals).map fun item => item.text.length).sum := by
  have joined : ∀ items : List CStr, (String.join (items.map CStr.text)).length =
      (items.map fun item => item.text.length).sum := by
    intro items
    rw [String.length_join, List.map_map]
    rfl
  have opening : "dump_interface [".length = 16 := by decide
  have closing : "]".length = 1 := by decide
  have locals : "locals[".length = 7 := by decide
  have globals : "] globals[".length = 10 := by decide
  unfold ifaceDump
  -- As variables: comparing the literals themselves unfolds them.
  generalize "dump_interface [" = first, "]" = last, "locals[" = second, "] globals[" = third
    at opening closing locals globals ⊢
  simp only [String.length_append, joined, List.map_append, List.sum_append, Iface.locals,
    Iface.globals]
  omega

theorem sum_sublist {left right : List Nat} (sub : left.Sublist right) :
    left.sum ≤ right.sum := by
  induction sub with
  | slnil => exact Nat.le_refl _
  | cons _ _ ih =>
      rw [List.sum_cons]
      omega
  | cons_cons _ _ ih =>
      rw [List.sum_cons, List.sum_cons]
      omega

/-- A dump gets no longer by what is taken off the lists. -/
theorem Iface.Printable.shrinks {iface other : Iface} (fits : iface.Printable)
    (mod : other.mod = iface.mod) (func : other.func = iface.func) (ver : other.ver = iface.ver)
    (locals : other.locals.Sublist iface.locals) (globals : other.globals.Sublist iface.globals) :
    other.Printable := by
  have path : ifacePath other = ifacePath iface := by
    rw [ifacePath, mod, func, ver, ifacePath]
  have shorter := sum_sublist ((locals.append globals).map fun item => item.text.length)
  unfold Iface.Printable at fits ⊢
  rw [ifaceDump_length] at fits ⊢
  rw [path]
  omega

theorem Iface.Same.printable {iface other : Iface} (same : iface.Same other) :
    other.Printable ↔ iface.Printable := by
  have path : ifacePath other = ifacePath iface := by
    rw [ifacePath, same.mod, same.func, same.ver, ifacePath]
  rw [Iface.Printable, Iface.Printable, ifaceDump_length, ifaceDump_length, path, same.locals,
    same.globals]

theorem ifaceAppendLocal_locals (iface : Iface) (loc : CStr) :
    (ifaceAppendLocal iface loc).2.locals =
      if loc.text ∈ iface.locals.map CStr.text then iface.locals else iface.locals ++ [loc] := by
  have listed : iface.locals.any (fun cur => decide (cur.text = loc.text)) = true ↔
      loc.text ∈ iface.locals.map CStr.text := by
    simp [List.any_eq_true]
  rw [← ite_congr (propext listed) (fun _ => rfl) (fun _ => rfl)]
  exact ZList.appendNew_items _ _ _

theorem ifaceAppendGlobal_globals (iface : Iface) (global : CStr) (copy : Addr) :
    (ifaceAppendGlobal iface global copy).2.globals =
      if global.text ∈ iface.globals.map CStr.text then iface.globals
      else iface.globals ++ [⟨copy, global.text⟩] := by
  have listed : iface.globals.any (fun cur => decide (cur.text = global.text)) = true ↔
      global.text ∈ iface.globals.map CStr.text := by
    simp [List.any_eq_true]
  rw [← ite_congr (propext listed) (fun _ => rfl) (fun _ => rfl)]
  exact ZList.appendNew_items _ _ _

theorem checkInterface_eq (ifaces : ZList Addr) (heap : Heap) (mod func : String)
    (ver : UInt64) :
    checkInterface ifaces heap mod func ver = ifaces.items.find? fun iface =>
      decide ((heap iface).mod = mod ∧ (heap iface).func = func ∧ ver ≤ (heap iface).ver) :=
  ZList.search_fst _ _

/-- What the lookup returns is registered, matches, and is at least `ver`. -/
theorem checkInterface_some {ifaces : ZList Addr} {heap : Heap} {mod func : String}
    {ver : UInt64} {iface : Addr} (found : checkInterface ifaces heap mod func ver = some iface) :
    iface ∈ ifaces.items ∧ (heap iface).mod = mod ∧ (heap iface).func = func ∧
      ver ≤ (heap iface).ver := by
  rw [checkInterface_eq] at found
  exact ⟨List.mem_of_find?_eq_some found, by simpa using List.find?_some found⟩

/-! The two lists and the registry after an identity is removed everywhere. -/

theorem unlist_locals (iface : Iface) (identity : CStr) :
    (iface.unlist identity).locals =
      iface.locals.eraseP fun item => decide (item.addr = identity.addr) :=
  ZList.remove_items _ _

theorem unlist_globals (iface : Iface) (identity : CStr) :
    (iface.unlist identity).globals =
      iface.globals.eraseP fun item => decide (item.addr = identity.addr) :=
  ZList.remove_items _ _

theorem unlist_locals_subset (iface : Iface) (identity : CStr) :
    (iface.unlist identity).locals ⊆ iface.locals := by
  rw [unlist_locals]
  exact List.eraseP_subset

theorem nodup_append_fresh {items : List CStr} {item : CStr}
    (once : (items.map CStr.text).Nodup) (fresh : item.text ∉ items.map CStr.text) :
    ((items ++ [item]).map CStr.text).Nodup := by
  rw [List.map_append, List.nodup_append]
  refine ⟨once, List.nodup_singleton _, ?_⟩
  rintro left member right single rfl
  rw [List.map_singleton, List.mem_singleton] at single
  exact fresh (single ▸ member)

/-- In a list that names nobody twice, removing the pointer that holds a name
removes the name. -/
theorem unlist_forgets {iface : Iface} {identity : CStr}
    (once : (iface.locals.map CStr.text).Nodup)
    (held : ∀ item ∈ iface.locals, item.text = identity.text ↔ item.addr = identity.addr) :
    ∀ item ∈ (iface.unlist identity).locals, item.text ≠ identity.text := by
  intro item member same
  have listed := unlist_locals_subset iface identity member
  have pointer := (held item listed).mp same
  obtain ⟨gone, before, after, kept, isGone, split, erased⟩ :=
    List.exists_of_eraseP listed (p := fun item => decide (item.addr = identity.addr))
      (by simpa using pointer)
  rw [unlist_locals, erased] at member
  rcases List.mem_append.mp member with earlier | later
  · exact absurd (by simpa using pointer) (kept item earlier)
  · have goneListed : gone ∈ iface.locals := by simp [split]
    have goneText := (held gone goneListed).mpr (by simpa using isGone)
    rw [split, List.map_append, List.map_cons] at once
    have rest := (List.nodup_append.mp once).2.1
    exact (List.nodup_cons.mp rest).1
      (List.mem_map.mpr ⟨item, later, same.trans goneText.symm⟩)

theorem deserted_iff (iface : Iface) :
    iface.deserted = true ↔ iface.globals = [] ∧ iface.locals = [] := by
  simp [Iface.deserted, Iface.globals, Iface.locals, ZList.size]

theorem ifaceVisit_elsewhere (identity : CStr) (heap : Heap) {iface other : Addr}
    (different : other ≠ iface) : (ifaceVisit identity heap iface).2 other = heap other :=
  Function.update_of_ne different _ _

theorem ifaceRemove_walk (identity : CStr) (items : List Addr) (heap : Heap)
    (distinct : items.Nodup) :
    (ZList.sweepItems (ifaceVisit identity) items heap).1 =
        items.filter (fun iface => !((heap iface).unlist identity).deserted) ∧
      ∀ iface, (ZList.sweepItems (ifaceVisit identity) items heap).2 iface =
        if iface ∈ items then (heap iface).unlist identity else heap iface := by
  induction items generalizing heap with
  | nil => exact ⟨rfl, fun iface => by simp [ZList.sweepItems]⟩
  | cons head rest ih =>
      have parts := List.nodup_cons.mp distinct
      obtain ⟨kept, contents⟩ := ih (ifaceVisit identity heap head).2 parts.2
      have elsewhere : ∀ iface ∈ rest, (ifaceVisit identity heap head).2 iface = heap iface := by
        intro iface member
        apply ifaceVisit_elsewhere
        rintro rfl
        exact parts.1 member
      constructor
      · have agree : rest.filter (fun iface =>
            !(((ifaceVisit identity heap head).2 iface).unlist identity).deserted) =
            rest.filter (fun iface => !((heap iface).unlist identity).deserted) := by
          apply List.filter_congr
          intro iface member
          rw [elsewhere iface member]
        have choice : (ifaceVisit identity heap head).1 =
            ((heap head).unlist identity).deserted := rfl
        simp only [ZList.sweepItems, kept, agree, List.filter_cons, choice]
        cases ((heap head).unlist identity).deserted <;> rfl
      · intro iface
        simp only [ZList.sweepItems, contents]
        by_cases later : iface ∈ rest
        · simp [later, elsewhere iface later]
        · by_cases same : iface = head
          · subst same
            simp [later, ifaceVisit]
          · simp [later, same, ifaceVisit_elsewhere]

theorem ifaceRemove_items (ifaces : ZList Addr) (identity : CStr) (heap : Heap)
    (distinct : ifaces.items.Nodup) :
    (ifaceRemove ifaces identity heap).1.items =
      ifaces.items.filter fun iface => !((heap iface).unlist identity).deserted := by
  rw [ifaceRemove, ZList.sweep_eq _ _ _ distinct]
  exact (ifaceRemove_walk identity ifaces.items heap distinct).1

theorem ifaceRemove_heap (ifaces : ZList Addr) (identity : CStr) (heap : Heap)
    (distinct : ifaces.items.Nodup) (iface : Addr) :
    (ifaceRemove ifaces identity heap).2 iface =
      if iface ∈ ifaces.items then (heap iface).unlist identity else heap iface := by
  rw [ifaceRemove, ZList.sweep_eq _ _ _ distinct]
  exact (ifaceRemove_walk identity ifaces.items heap distinct).2 iface

end ModBus
