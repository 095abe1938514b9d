import ModBus.IfaceList

/-! The dump that `iface_print` makes of an interface with each provider that it
gets: which interface that is, and whether its dump fits. -/

namespace ModBus

open Libc Czmq Transition

def Iface.serves (iface : Iface) (offer : String × String × UInt64) : Bool :=
  decide (iface.mod = offer.1 ∧ iface.func = offer.2.1 ∧ offer.2.2 ≤ iface.ver)

def newIface (offer : String × String × UInt64) : Iface :=
  ⟨offer.1, offer.2.1, offer.2.2, ZList.new, ZList.new⟩

def Proxy.attachedTo (p : Proxy) (earlier : List (String × String × UInt64))
    (offer : String × String × UInt64) : Iface :=
  ((p.ifaces.items.map p.heap ++ earlier.map newIface).find? (Iface.serves · offer)).getD
    (newIface offer)

def LocalDumpFits (p : Proxy) (identity : String) (offer : String × String × UInt64) : Prop :=
  (ifaceAppendLocal (p.attachedTo [] offer) ⟨0, identity⟩).2.Printable

def GlobalDumpFits (p : Proxy) (identity : String) (earlier : List (String × String × UInt64))
    (offer : String × String × UInt64) : Prop :=
  (ifaceAppendGlobal (p.attachedTo earlier offer) ⟨0, identity⟩ 0).2.Printable

def LocalDumpsFit (p : Proxy) (identity name : String) (provides : ZHash Unpacked)
    (functions : List String) : Prop :=
  ∀ function ∈ functions, ∀ value ver, provides.lookup function = some value →
    value.version = .ok ver → LocalDumpFits p identity (name, function, ver)

def GlobalDumpsFit (p : Proxy) (identity : String) (offers : List (String × String × UInt64)) :
    Prop :=
  ∀ earlier offer later, offers = earlier ++ offer :: later → GlobalDumpFits p identity earlier offer

structure Iface.SameTexts (iface other : Iface) : Prop where
  mod : other.mod = iface.mod
  func : other.func = iface.func
  ver : other.ver = iface.ver
  locals : other.locals.map CStr.text = iface.locals.map CStr.text
  globals : other.globals.map CStr.text = iface.globals.map CStr.text

def AlikeWith (identity : String) (iface other : Iface) : Prop :=
  (ifaceAppendGlobal iface ⟨0, identity⟩ 0).2.SameTexts (ifaceAppendGlobal other ⟨0, identity⟩ 0).2

section

variable {conf : Config} {p q : Proxy} {iface other : Iface} {identity : String} {copy : Addr}
  {offer : String × String × UInt64} {earlier : List (String × String × UInt64)}

theorem Iface.SameTexts.refl (iface : Iface) : iface.SameTexts iface := ⟨rfl, rfl, rfl, rfl, rfl⟩

theorem Iface.SameTexts.printable (same : iface.SameTexts other) :
    other.Printable ↔ iface.Printable := by
  have path : ifacePath other = ifacePath iface := by
    rw [ifacePath, same.mod, same.func, same.ver, ifacePath]
  have lengths : ∀ items : List CStr, (items.map fun item => item.text.length) =
      (items.map CStr.text).map String.length := fun items => by rw [List.map_map]; rfl
  rw [Iface.Printable, Iface.Printable, ifaceDump_length, ifaceDump_length, path]
  simp only [lengths, List.map_append, same.locals, same.globals]

theorem ifaceAppendGlobal_texts (iface : Iface) (global : CStr) (copy : Addr) :
    (ifaceAppendGlobal iface global copy).2.globals.map CStr.text =
      if global.text ∈ iface.globals.map CStr.text then iface.globals.map CStr.text
      else iface.globals.map CStr.text ++ [global.text] := by
  rw [ifaceAppendGlobal_globals]
  split
  · rfl
  · rw [List.map_append, List.map_singleton]

theorem ifaceAppendLocal_texts (iface : Iface) (loc : CStr) :
    (ifaceAppendLocal iface loc).2.locals.map CStr.text =
      if loc.text ∈ iface.locals.map CStr.text then iface.locals.map CStr.text
      else iface.locals.map CStr.text ++ [loc.text] := by
  rw [ifaceAppendLocal_locals]
  split
  · rfl
  · rw [List.map_append, List.map_singleton]

theorem appendGlobal_printable (iface : Iface) (global : CStr) (copy : Addr) :
    (ifaceAppendGlobal iface global copy).2.Printable ↔
      (ifaceAppendGlobal iface ⟨0, global.text⟩ 0).2.Printable := by
  refine Iface.SameTexts.printable ⟨rfl, rfl, rfl, rfl, ?_⟩
  rw [ifaceAppendGlobal_texts, ifaceAppendGlobal_texts]

theorem appendLocal_printable (iface : Iface) (loc : CStr) :
    (ifaceAppendLocal iface loc).2.Printable ↔
      (ifaceAppendLocal iface ⟨0, loc.text⟩).2.Printable := by
  refine Iface.SameTexts.printable ⟨rfl, rfl, rfl, ?_, rfl⟩
  rw [ifaceAppendLocal_texts, ifaceAppendLocal_texts]

theorem find?_items (p : Proxy) (offer : String × String × UInt64) :
    (p.ifaces.items.map p.heap).find? (Iface.serves · offer) =
      (checkInterface p.ifaces p.heap offer.1 offer.2.1 offer.2.2).map p.heap := by
  rw [checkInterface_eq, List.find?_map]
  rfl

theorem ifaceFor_attachedTo {mod func : String} {ver : UInt64} {iface : Addr}
    (run : ifaceFor mod func ver p = .ok (iface, q)) :
    q.heap iface = p.attachedTo [] (mod, func, ver) := by
  rw [Proxy.attachedTo, List.map_nil, List.append_nil, find?_items]
  rcases ifaceFor_ok run with ⟨found, rfl⟩ | ⟨absent, rfl, same⟩
  · rw [found]
    rfl
  · rw [absent, same]
    exact Function.update_self _ _ _

/-- Where the interface can be had, what is left to go wrong is its dump. -/
theorem provideLocal_attached (identity : CStr) {mod func : String} {ver : UInt64}
    {attached : Addr × Proxy} (attaching : ifaceFor mod func ver p = .ok attached) :
    (LocalDumpFits p identity.text (mod, func, ver) →
        ∃ q, provideLocal identity mod func ver p = .ok q) ∧
      (¬ LocalDumpFits p identity.text (mod, func, ver) →
        provideLocal identity mod func ver p = .error .outOfBounds) := by
  obtain ⟨iface, middle⟩ := attached
  have fits : LocalDumpFits p identity.text (mod, func, ver) ↔
      (ifaceAppendLocal (middle.heap iface) identity).2.Printable := by
    rw [LocalDumpFits, ← ifaceFor_attachedTo attaching, ← appendLocal_printable _ identity]
  rw [fits]
  refine ⟨fun printable => ⟨_, provideLocal_iff.mpr ⟨iface, middle, attaching, printable, rfl⟩⟩, ?_⟩
  intro long
  simp only [provideLocal, attaching, ifacePrint, if_neg long]

theorem provideGlobal_attached (fab : Fabric) {mod func : String} {ver : UInt64}
    {attached : Addr × Proxy} (attaching : ifaceFor mod func ver p = .ok attached) :
    (GlobalDumpFits p fab.identity.text [] (mod, func, ver) →
        ∃ q, provideGlobal fab mod func ver p = .ok q) ∧
      (¬ GlobalDumpFits p fab.identity.text [] (mod, func, ver) →
        provideGlobal fab mod func ver p = .error .outOfBounds) := by
  obtain ⟨iface, middle⟩ := attached
  have fits : GlobalDumpFits p fab.identity.text [] (mod, func, ver) ↔
      (ifaceAppendGlobal (middle.heap iface) fab.identity middle.brk).2.Printable := by
    rw [GlobalDumpFits, ← ifaceFor_attachedTo attaching,
      ← appendGlobal_printable _ fab.identity middle.brk]
  rw [fits]
  refine ⟨fun printable => ⟨_, provideGlobal_iff.mpr ⟨iface, middle, attaching, printable, rfl⟩⟩, ?_⟩
  intro long
  simp only [provideGlobal, attaching, ifacePrint, if_neg long]

theorem provideLocal_fits {identity : CStr} {mod func : String} {ver : UInt64}
    (run : provideLocal identity mod func ver p = .ok q) :
    LocalDumpFits p identity.text (mod, func, ver) := by
  obtain ⟨iface, middle, attaching, _, _⟩ := provideLocal_iff.mp run
  by_contra long
  rw [(provideLocal_attached identity attaching).2 long] at run
  cases run

theorem provideGlobal_fits {fab : Fabric} {mod func : String} {ver : UInt64}
    (run : provideGlobal fab mod func ver p = .ok q) :
    GlobalDumpFits p fab.identity.text [] (mod, func, ver) := by
  obtain ⟨iface, middle, attaching, _, _⟩ := provideGlobal_iff.mp run
  by_contra long
  rw [(provideGlobal_attached fab attaching).2 long] at run
  cases run

/-! One offer after the other. -/

theorem AlikeWith.refl (identity : String) (iface : Iface) : AlikeWith identity iface iface :=
  Iface.SameTexts.refl _

theorem AlikeWith.serves (alike : AlikeWith identity iface other)
    (offer : String × String × UInt64) : iface.serves offer = other.serves offer := by
  have mod : other.mod = iface.mod := alike.mod
  have func : other.func = iface.func := alike.func
  have ver : other.ver = iface.ver := alike.ver
  rw [Iface.serves, Iface.serves, mod, func, ver]

theorem alikeWith_appended (iface : Iface) (global : CStr) (copy : Addr) :
    AlikeWith global.text (ifaceAppendGlobal iface global copy).2.printed iface := by
  refine ⟨rfl, rfl, rfl, ?_, ?_⟩
  · exact congrArg _ (printed_same (ifaceAppendGlobal iface global copy).2).locals.symm
  · rw [ifaceAppendGlobal_texts, ifaceAppendGlobal_texts, (printed_same _).globals,
      ifaceAppendGlobal_texts]
    by_cases listed : global.text ∈ iface.globals.map CStr.text
    · rw [if_pos listed, if_pos listed]
    · rw [if_neg listed, if_pos (by simp)]

theorem find?_related {α : Type} {R : α → α → Prop} {accepts : α → Bool} {left right : List α}
    (agree : ∀ first second, R first second → accepts first = accepts second)
    (related : List.Forall₂ R left right) : Option.Rel R (left.find? accepts) (right.find? accepts) := by
  induction related with
  | nil => exact .none
  | @cons first second _ _ same _ ih =>
      rw [List.find?_cons, List.find?_cons, agree first second same]
      cases accepts second with
      | true => exact .some same
      | false => exact ih

/-- An interface that serves an offer serves whatever the offer's own would. -/
theorem serves_trans {mine theirs : String × String × UInt64} (serves : iface.serves mine = true)
    (would : (newIface mine).serves theirs = true) : iface.serves theirs = true := by
  unfold Iface.serves at serves would ⊢
  rw [decide_eq_true_eq] at serves would ⊢
  exact ⟨serves.1.trans would.1, serves.2.1.trans would.2.1,
    UInt64.le_trans would.2.2 serves.2.2⟩

theorem find?_without {listed later : List Iface} {mine : String × String × UInt64}
    (served : ∃ iface ∈ listed, iface.serves mine = true) (offer : String × String × UInt64) :
    (listed ++ newIface mine :: later).find? (Iface.serves · offer) =
      (listed ++ later).find? (Iface.serves · offer) := by
  rw [List.find?_append, List.find?_append, List.find?_cons]
  cases found : listed.find? (Iface.serves · offer) with
  | some first => rfl
  | none =>
      have other : (newIface mine).serves offer = false := by
        by_contra would
        obtain ⟨iface, member, serves⟩ := served
        exact List.find?_eq_none.mp found iface member
          (serves_trans serves (by simpa using would))
      rw [other]

/-- What the registry is after an offer stands for what it was and the offer. -/
theorem provideGlobal_attachedTo {fab : Fabric} {mod func : String} {ver : UInt64}
    (registry : Registry p) (run : provideGlobal fab mod func ver p = .ok q)
    (earlier : List (String × String × UInt64)) (offer : String × String × UInt64) :
    AlikeWith fab.identity.text (q.attachedTo earlier offer)
      (p.attachedTo ((mod, func, ver) :: earlier) offer) := by
  obtain ⟨iface, middle, attaching, _, rfl⟩ := provideGlobal_iff.mp run
  have later : List.Forall₂ (AlikeWith fab.identity.text) (earlier.map newIface)
      (earlier.map newIface) := List.forall₂_same.mpr fun _ _ => .refl _ _
  have both : Option.Rel (AlikeWith fab.identity.text)
      (((middle.modifyIface iface fun entry =>
        (ifaceAppendGlobal entry fab.identity middle.brk).2.printed).ifaces.items.map
          (middle.modifyIface iface fun entry =>
            (ifaceAppendGlobal entry fab.identity middle.brk).2.printed).heap ++
        earlier.map newIface).find? (Iface.serves · offer))
      ((p.ifaces.items.map p.heap ++ newIface (mod, func, ver) :: earlier.map newIface).find?
        (Iface.serves · offer)) := by
    have agree : ∀ first second, AlikeWith fab.identity.text first second →
        first.serves offer = second.serves offer := fun _ _ alike => alike.serves offer
    have changed : ∀ items : List Addr, List.Forall₂ (AlikeWith fab.identity.text)
        (items.map (middle.modifyIface iface fun entry =>
          (ifaceAppendGlobal entry fab.identity middle.brk).2.printed).heap)
        (items.map middle.heap) := by
      intro items
      rw [List.forall₂_map_left_iff, List.forall₂_map_right_iff, List.forall₂_same]
      intro other _
      by_cases here : other = iface
      · subst here
        simp only [Proxy.modifyIface, Function.update_self]
        exact alikeWith_appended _ _ _
      · simp only [Proxy.modifyIface, Function.update_of_ne here]
        exact .refl _ _
    rcases ifaceFor_ok attaching with ⟨found, rfl⟩ | ⟨_, rfl, same⟩
    · obtain ⟨listed, sameMod, sameFunc, above⟩ := checkInterface_some found
      have served : ∃ entry ∈ middle.ifaces.items.map middle.heap,
          entry.serves (mod, func, ver) = true :=
        ⟨_, List.mem_map_of_mem listed, by simp [Iface.serves, sameMod, sameFunc, above]⟩
      rw [find?_without served]
      exact find?_related agree (List.rel_append (changed _) later)
    · have items : middle.ifaces.items = p.ifaces.items ++ [p.brk] := by
        rw [same]
        exact ZList.append_items _ _
      have kept : p.ifaces.items.map middle.heap = p.ifaces.items.map p.heap := by
        refine List.map_congr_left fun other listed => ?_
        rw [same]
        exact Function.update_of_ne (Nat.ne_of_lt (registry.allocated other listed)) _ _
      have opened : middle.heap p.brk = newIface (mod, func, ver) := by
        rw [same]
        exact Function.update_self _ _ _
      have listed := changed middle.ifaces.items
      rw [items, List.map_append, List.map_append, kept, List.map_singleton, List.map_singleton,
        opened] at listed
      have whole := find?_related agree (List.rel_append listed later)
      simp only [List.append_assoc, List.singleton_append] at whole
      have same : (middle.modifyIface p.brk fun entry =>
          (ifaceAppendGlobal entry fab.identity middle.brk).2.printed).ifaces.items =
            p.ifaces.items ++ [p.brk] := items
      rw [same, List.map_append, List.map_singleton]
      simp only [List.append_assoc, List.singleton_append]
      exact whole
  unfold Proxy.attachedTo
  rw [List.map_cons]
  revert both
  generalize List.find? _ _ = left
  generalize List.find? _ _ = right
  intro both
  cases both with
  | none => exact .refl _ _
  | some alike => exact alike

theorem globalDumpsFit_cons {fab : Fabric} {mod func : String} {ver : UInt64}
    {offers : List (String × String × UInt64)} (registry : Registry p)
    (run : provideGlobal fab mod func ver p = .ok q) :
    GlobalDumpsFit p fab.identity.text ((mod, func, ver) :: offers) ↔
      GlobalDumpsFit q fab.identity.text offers := by
  have shifted : ∀ earlier offer, GlobalDumpFits p fab.identity.text ((mod, func, ver) :: earlier)
      offer ↔ GlobalDumpFits q fab.identity.text earlier offer := fun earlier offer =>
    (provideGlobal_attachedTo registry run earlier offer).printable
  constructor
  · rintro fits earlier offer later rfl
    exact (shifted earlier offer).mp (fits (_ :: earlier) offer later rfl)
  · intro fits earlier offer later split'
    cases earlier with
    | nil =>
        cases split'
        exact provideGlobal_fits run
    | cons first earlier =>
        cases split'
        exact (shifted earlier offer).mpr (fits earlier offer later rfl)

theorem provideTriples_fits {fab : Fabric} {offers : List (String × String × UInt64)}
    (registry : Registry p) (run : provideTriples fab offers p = .ok q) :
    GlobalDumpsFit p fab.identity.text offers := by
  induction offers generalizing p with
  | nil =>
      intro earlier offer later split'
      simp at split'
  | cons offer offers ih =>
      obtain ⟨mod, func, ver⟩ := offer
      simp only [provideTriples] at run
      split at run
      · cases run
      · rename_i middle provided
        exact (globalDumpsFit_cons registry provided).mpr
          (ih (registry.provideGlobal provided) run)

theorem ifaceFor_total {ver : UInt64} (positive : ver ≠ 0) (mod func : String) (p : Proxy) :
    ∃ attached, ifaceFor mod func ver p = .ok attached := by
  unfold ifaceFor
  cases checkInterface p.ifaces p.heap mod func ver with
  | some iface => exact ⟨_, rfl⟩
  | none =>
      simp only [ifaceNew, if_neg positive]
      exact ⟨_, rfl⟩

theorem provideTriples_total (fab : Fabric) {offers : List (String × String × UInt64)}
    (registry : Registry p) (versions : ∀ offer ∈ offers, offer.2.2 ≠ 0)
    (fits : GlobalDumpsFit p fab.identity.text offers) :
    ∃ q, provideTriples fab offers p = .ok q := by
  induction offers generalizing p with
  | nil => exact ⟨p, rfl⟩
  | cons offer offers ih =>
      obtain ⟨mod, func, ver⟩ := offer
      obtain ⟨attached, attaching⟩ := ifaceFor_total (versions _ List.mem_cons_self) mod func p
      obtain ⟨middle, provided⟩ :=
        (provideGlobal_attached fab attaching).1 (fits [] _ offers rfl)
      simp only [provideTriples, provided]
      exact ih (registry.provideGlobal provided)
        (fun other member => versions other (List.mem_cons_of_mem _ member))
        ((globalDumpsFit_cons registry provided).mp fits)

/-- One function's provider does not lengthen another's dump. -/
theorem provideLocal_attachedTo {identity : CStr} {name function other : String}
    {ver version : UInt64} (registry : Registry p)
    (run : provideLocal identity name function ver p = .ok q) (apart : other ≠ function) :
    q.attachedTo [] (name, other, version) = p.attachedTo [] (name, other, version) := by
  obtain ⟨iface, middle, attaching, _, rfl⟩ := provideLocal_iff.mp run
  have attached := ifaceFor_attached registry attaching
  have same : ∀ entry ∈ p.ifaces.items,
      ((middle.modifyIface iface fun entry => (ifaceAppendLocal entry identity).2.printed).heap
        entry).serves (name, other, version) = (p.heap entry).serves (name, other, version) ∧
      ((p.heap entry).serves (name, other, version) = true →
        (middle.modifyIface iface fun entry => (ifaceAppendLocal entry identity).2.printed).heap
          entry = p.heap entry) := by
    intro entry listed
    have kept := attached.used entry (registry.allocated entry listed)
    by_cases here : entry = iface
    · subst here
      have mine : (p.heap entry).func = function := kept ▸ attached.func
      have theirs : (p.heap entry).func ≠ other := fun same => apart (same.symm.trans mine)
      simp [Proxy.modifyIface, Iface.serves, ifaceAppendLocal, Iface.printed, kept, theirs]
    · simp [Proxy.modifyIface, here, kept]
  have found : (p.ifaces.items.map (middle.modifyIface iface fun entry =>
      (ifaceAppendLocal entry identity).2.printed).heap).find?
        (Iface.serves · (name, other, version)) =
      (p.ifaces.items.map p.heap).find? (Iface.serves · (name, other, version)) := by
    generalize p.ifaces.items = items at same ⊢
    induction items with
    | nil => rfl
    | cons entry items ih =>
        obtain ⟨agrees, equal⟩ := same entry List.mem_cons_self
        rw [List.map_cons, List.map_cons, List.find?_cons, List.find?_cons, agrees]
        cases serves : (p.heap entry).serves (name, other, version) with
        | true => rw [equal serves]
        | false => exact ih fun later member => same later (List.mem_cons_of_mem _ member)
  have items : (middle.modifyIface iface fun entry =>
      (ifaceAppendLocal entry identity).2.printed).ifaces.items = middle.ifaces.items := rfl
  unfold Proxy.attachedTo
  simp only [List.map_nil, List.append_nil, items]
  rcases attached.items with kept | grown
  · rw [kept, found]
  · have last : ((middle.modifyIface iface fun entry =>
        (ifaceAppendLocal entry identity).2.printed).heap iface).serves (name, other, version) =
          false := by
      simp [Proxy.modifyIface, Iface.serves, ifaceAppendLocal, Iface.printed, attached.func,
        Ne.symm apart]
    rw [grown, List.map_append, List.find?_append, found, List.map_singleton, List.find?_cons,
      last]
    simp

theorem provideLocal_localDumps {identity : CStr} {name function other : String}
    {ver version : UInt64} (registry : Registry p)
    (run : provideLocal identity name function ver p = .ok q) (apart : other ≠ function)
    (who : String) :
    LocalDumpFits q who (name, other, version) ↔ LocalDumpFits p who (name, other, version) := by
  rw [LocalDumpFits, LocalDumpFits, provideLocal_attachedTo registry run apart]

theorem provideLocal_localDumpsFit {identity : CStr} {name function : String} {ver : UInt64}
    {provides : ZHash Unpacked} {functions : List String} (registry : Registry p)
    (run : provideLocal identity name function ver p = .ok q) (apart : function ∉ functions)
    (who : String) :
    LocalDumpsFit q who name provides functions ↔ LocalDumpsFit p who name provides functions := by
  refine forall₂_congr fun other member => forall₄_congr fun value version _ _ => ?_
  refine provideLocal_localDumps registry run ?_ who
  rintro rfl
  exact apart member

/-! Every registered interface was dumped with all that it lists. -/

theorem printable_rule : RegistryRule Proxy.Printable := by
  constructor
  · intro p q ifaces same printable iface listed
    exact (same iface).printable.mpr (printable iface (ifaces ▸ listed))
  · intro p q identity name function ver registry _ _ run printable iface listed
    obtain ⟨target, middle, attaching, fits, rfl⟩ := provideLocal_iff.mp run
    have attached := ifaceFor_attached registry attaching
    by_cases here : iface = target
    · subst here
      simp only [Proxy.modifyIface, Function.update_self]
      exact (printed_same _).printable.mpr fits
    · have old : iface ∈ p.ifaces.items := by
        rcases attached.items with same | grown
        · exact same ▸ listed
        · have listed : iface ∈ middle.ifaces.items := listed
          rw [grown] at listed
          exact (List.mem_append.mp listed).resolve_right (by simpa using here)
      simp only [Proxy.modifyIface, Function.update_of_ne here]
      rw [attached.used iface (registry.allocated iface old)]
      exact printable iface old
  · intro p q fab mod func ver registry _ _ run printable iface listed
    obtain ⟨target, middle, attaching, fits, rfl⟩ := provideGlobal_iff.mp run
    have attached := ifaceFor_attached registry attaching
    by_cases here : iface = target
    · subst here
      simp only [Proxy.modifyIface, Function.update_self]
      exact (printed_same _).printable.mpr fits
    · have old : iface ∈ p.ifaces.items := by
        rcases attached.items with same | grown
        · exact same ▸ listed
        · have listed : iface ∈ middle.ifaces.items := listed
          rw [grown] at listed
          exact (List.mem_append.mp listed).resolve_right (by simpa using here)
      simp only [Proxy.modifyIface, Function.update_of_ne here]
      rw [attached.used iface (registry.allocated iface old)]
      exact printable iface old
  · intro p identity registry printable
    exact printed_printable.mpr (unlist_printable registry.nodup printable identity)

theorem printable_reaches {guard : Proxy → Env × Event → Prop}
    (reached : Reaches (fabric conf) guard p) : p.Printable :=
  printable_rule.reaches (reaches_registrySystem reached) fun _ listed => absurd listed List.not_mem_nil

end

end ModBus
