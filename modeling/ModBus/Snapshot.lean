import Mathlib.Data.List.Induction
import ModBus.Catalog
import ModBus.Dumps

/-! What the interface list of another fabric does to the registry. The handler
lists the fabric under the least registered version that is at least the offered
one, and takes nothing back. -/

namespace ModBus

open Libc Czmq Transition Offers

instance versionOrder : LinearOrder UInt64 where
  le_refl := UInt64.le_refl
  le_trans _ _ _ := UInt64.le_trans
  le_antisymm _ _ := UInt64.le_antisymm
  le_total := UInt64.le_total
  lt_iff_le_not_ge _ _ := by
    rw [UInt64.lt_iff_toNat_lt, UInt64.le_iff_toNat_le, UInt64.le_iff_toNat_le]
    omega
  toDecidableLE := inferInstance

def Proxy.catalog (p : Proxy) (fab : String) : Catalog (String × String) UInt64 where
  known entry := ∃ iface ∈ p.ifaces.items,
    (p.heap iface).mod = entry.1.1 ∧ (p.heap iface).func = entry.1.2 ∧ (p.heap iface).ver = entry.2
  believed entry := ∃ iface ∈ p.ifaces.items,
    (p.heap iface).mod = entry.1.1 ∧ (p.heap iface).func = entry.1.2 ∧
      (p.heap iface).ver = entry.2 ∧ fab ∈ (p.heap iface).globals.map CStr.text

def offerPath (offer : (String × String) × UInt64) : String :=
  offer.1.1 ++ ":" ++ offer.1.2 ++ ":" ++ decimal offer.2.toInt64.toInt

structure BringsList (p : Proxy) (message : Message)
    (offers : List ((String × String) × UInt64)) : Prop where
  foreign : message.isLocal = false
  fabric : message.identity ∈ p.fabList
  paths : messageGetIfaceList message = .ok (some (offers.map offerPath))
  names : ∀ offer ∈ offers, ':' ∉ offer.1.1.toList ∧ ':' ∉ offer.1.2.toList
  versions : ∀ offer ∈ offers, 1 ≤ offer.2.toNat ∧ offer.2.toNat < 2 ^ 31

structure Unchanged (message : Message) (p q : Proxy) : Prop where
  same : q = { p.arrived message with heap := q.heap, brk := q.brk }
  sameHeap : p.SameHeap q

def Snapshot (env again : Env) (message : Message) (offers : List ((String × String) × UInt64))
    (p : Proxy) : Prop :=
  ∃ q, processResult env message (p.arrived message) = .ok q ∧
    (∀ offer, (q.catalog message.identity).believed offer ↔ offer ∈ offers) ∧
    ∃ r, processResult again message (q.arrived message) = .ok r ∧ Unchanged message q r

def flatOffer (offer : (String × String) × UInt64) : String × String × UInt64 :=
  (offer.1.1, offer.1.2, offer.2)

structure TakenExactly (p : Proxy) (message : Message)
    (offers : List ((String × String) × UInt64)) : Prop where
  nothing : ∀ offer, (p.catalog message.identity).believed offer → offer ∈ offers
  names : ∀ offer ∈ offers, offer.1.1 ≠ "" ∧ offer.1.2 ≠ ""
  exact : Exact (p.catalog message.identity).known offers
  dumps : GlobalDumpsFit p message.identity (offers.map flatOffer)
  unqueued : message.actionid ∈ p.queue →
    ∀ offer ∈ offers, (p.catalog message.identity).believed offer
  logs : ∀ stored, p.queue.lookup message.actionid = some stored → stored.isLocal = false →
    (invalidText message stored).length < 896

def GlobalNames (p : Proxy) : Prop :=
  ∀ iface ∈ p.ifaces.items, (p.heap iface).globals ≠ [] →
    (p.heap iface).mod ≠ "" ∧ (p.heap iface).func ≠ ""

section

variable {conf : Config} {env : Env} {p q : Proxy} {message : Message} {fab : Fabric}
  {offers : List ((String × String) × UInt64)}

theorem pathTriple_offerPath {offer : (String × String) × UInt64}
    (names : ':' ∉ offer.1.1.toList ∧ ':' ∉ offer.1.2.toList) (version : offer.2.toNat < 2 ^ 31)
    (full : offer.1.1 ≠ "" ∧ offer.1.2 ≠ "") :
    pathTriple (offerPath offer) = some (offer.1.1, offer.1.2, offer.2) := by
  have printed : offerPath offer = ifacePath ⟨offer.1.1, offer.1.2, offer.2, ZList.new, ZList.new⟩ :=
    rfl
  rw [printed]
  exact (pathTriple_ifacePath _).mpr ⟨⟨full.1, names.1⟩, ⟨full.2, names.2⟩, Or.inl version⟩

theorem pathTriple_short {path : String} (short : (strtok ':' path).length < 3) :
    pathTriple path = none := by
  unfold pathTriple
  split
  · rename_i words
    rw [words] at short
    simp at short
    omega
  · rfl

theorem pathTriple_empty {offer : (String × String) × UInt64}
    (names : ':' ∉ offer.1.1.toList ∧ ':' ∉ offer.1.2.toList)
    (empty : offer.1.1 = "" ∨ offer.1.2 = "") : pathTriple (offerPath offer) = none := by
  have printed : (offerPath offer).toList = offer.1.1.toList ++ ':' ::
      (offer.1.2.toList ++ ':' :: (decimal offer.2.toInt64.toInt).toList) := by
    simp [offerPath]
  have tokens := strtokFrom_word names.1 []
    (offer.1.2.toList ++ ':' :: (decimal offer.2.toInt64.toInt).toList)
  rw [strtokFrom_word names.2, strtokFrom_last (colon_notMem_decimal _), ← printed] at tokens
  apply pathTriple_short
  rw [strtok, tokens]
  rcases empty with empty | empty
  · rw [empty]
    (repeat' split) <;> simp_all
  · rw [empty]
    (repeat' split) <;> simp_all

theorem provideTriples_append (fab : Fabric) (triples : List (String × String × UInt64))
    (mod func : String) (ver : UInt64) (p : Proxy) :
    provideTriples fab (triples ++ [(mod, func, ver)]) p =
      match provideTriples fab triples p with
      | .error fault => .error fault
      | .ok middle => provideGlobal fab mod func ver middle := by
  induction triples generalizing p with
  | nil =>
      simp only [List.nil_append, provideTriples]
      cases provideGlobal fab mod func ver p <;> rfl
  | cons triple triples ih =>
      obtain ⟨first, function, version⟩ := triple
      simp only [List.cons_append, provideTriples]
      cases provideGlobal fab first function version p with
      | error fault => rfl
      | ok middle => exact ih middle

theorem catalog_congr (ifaces : q.ifaces = p.ifaces) (same : p.SameHeap q) (name : String) :
    q.catalog name = p.catalog name := by
  have fields : ∀ iface, (q.heap iface).mod = (p.heap iface).mod ∧
      (q.heap iface).func = (p.heap iface).func ∧ (q.heap iface).ver = (p.heap iface).ver ∧
      (q.heap iface).globals = (p.heap iface).globals := fun iface =>
    ⟨(same iface).mod, (same iface).func, (same iface).ver, (same iface).globals⟩
  simp only [Proxy.catalog, ifaces, fields]

theorem believed_known (p : Proxy) (name : String) (entry : (String × String) × UInt64)
    (believed : (p.catalog name).believed entry) : (p.catalog name).known entry := by
  obtain ⟨iface, listed, mod, func, ver, _⟩ := believed
  exact ⟨iface, listed, mod, func, ver⟩

theorem ifaceFor_taken {mod func : String} {ver : UInt64} {iface : Addr} (registry : Registry p)
    (orderly : Orderly p) (attaching : ifaceFor mod func ver p = .ok (iface, q)) (name : String) :
    ∃ version, TakenFor (p.catalog name) ((mod, func), ver) version ∧
      (q.heap iface).mod = mod ∧ (q.heap iface).func = func ∧ (q.heap iface).ver = version ∧
      (∀ entry, (q.catalog name).known entry ↔
        (p.catalog name).known entry ∨ entry = ((mod, func), version)) ∧
      ∀ entry, (q.catalog name).believed entry ↔ (p.catalog name).believed entry := by
  rcases ifaceFor_ok attaching with ⟨found, rfl⟩ | ⟨absent, rfl, same⟩
  · obtain ⟨suits, least⟩ := ((orderly.looksUpLeast mod func ver).found iface).mp found
    have known : (q.catalog name).known ((mod, func), (q.heap iface).ver) :=
      ⟨iface, suits.listed, suits.mod, suits.func, rfl⟩
    refine ⟨(q.heap iface).ver, .known known suits.above ?_, suits.mod, suits.func, rfl, ?_,
      fun _ => Iff.rfl⟩
    · rintro version ⟨other, listed, sameMod, sameFunc, rfl⟩ above
      by_cases here : other = iface
      · rw [here]
      · exact UInt64.le_of_lt (least other ⟨listed, sameMod, sameFunc, above⟩ here)
    · intro entry
      refine ⟨Or.inl, ?_⟩
      rintro (held | rfl)
      · exact held
      · exact known
  · have attached := ifaceFor_attached registry attaching
    have used : ∀ other ∈ p.ifaces.items, q.heap other = p.heap other := fun other listed =>
      attached.used other (registry.allocated other listed)
    have items : q.ifaces.items = p.ifaces.items ++ [p.brk] := by
      rw [same]
      exact ZList.append_items _ _
    have fresh : q.heap p.brk = ⟨mod, func, ver, ZList.new, ZList.new⟩ := by
      rw [same]
      exact Function.update_self _ _ _
    have older := ((orderly.looksUpLeast mod func ver).absent).mp absent
    refine ⟨ver, .new ?_, by rw [fresh], by rw [fresh], by rw [fresh], ?_, ?_⟩
    · rintro version ⟨other, listed, sameMod, sameFunc, rfl⟩
      exact UInt64.not_le.mp fun above => older other ⟨listed, sameMod, sameFunc, above⟩
    · intro entry
      simp only [Proxy.catalog, items, List.mem_append, List.mem_singleton, or_and_right,
        exists_or, exists_eq_left, fresh]
      refine or_congr (exists_congr fun other => and_congr_right fun listed => ?_) ?_
      · rw [used other listed]
      · rw [Prod.ext_iff, Prod.ext_iff]
        constructor
        · rintro ⟨first, second, third⟩
          exact ⟨⟨first.symm, second.symm⟩, third.symm⟩
        · rintro ⟨⟨first, second⟩, third⟩
          exact ⟨first.symm, second.symm, third.symm⟩
    · intro entry
      simp only [Proxy.catalog, items, List.mem_append, List.mem_singleton, or_and_right,
        exists_or, exists_eq_left, fresh]
      have nobody : (Iface.globals ⟨mod, func, ver, ZList.new, ZList.new⟩) = [] := rfl
      simp only [nobody, List.map_nil, List.not_mem_nil, and_false, or_false]
      refine exists_congr fun other => and_congr_right fun listed => ?_
      rw [used other listed]

section

variable {iface : Addr} {change : Iface → Iface}
  (keeps : ∀ entry, (change entry).mod = entry.mod ∧ (change entry).func = entry.func ∧
    (change entry).ver = entry.ver)

include keeps

theorem modifyIface_fields (other : Addr) :
    ((p.modifyIface iface change).heap other).mod = (p.heap other).mod ∧
      ((p.modifyIface iface change).heap other).func = (p.heap other).func ∧
      ((p.modifyIface iface change).heap other).ver = (p.heap other).ver := by
  by_cases same : other = iface
  · subst same
    simpa [Proxy.modifyIface] using keeps (p.heap other)
  · simp [Proxy.modifyIface, same]

theorem modifyIface_known (entry : (String × String) × UInt64) :
    (∃ other ∈ p.ifaces.items, ((p.modifyIface iface change).heap other).mod = entry.1.1 ∧
        ((p.modifyIface iface change).heap other).func = entry.1.2 ∧
        ((p.modifyIface iface change).heap other).ver = entry.2) ↔
      ∃ other ∈ p.ifaces.items, (p.heap other).mod = entry.1.1 ∧
        (p.heap other).func = entry.1.2 ∧ (p.heap other).ver = entry.2 := by
  simp only [modifyIface_fields keeps]

/-- A name more in one list of one interface is one more entry that lists it. -/
theorem modifyIface_lists (members : Iface → List CStr) {new : String}
    (listed : iface ∈ p.ifaces.items)
    (adds : ∀ who, who ∈ (members (change (p.heap iface))).map CStr.text ↔
      who ∈ (members (p.heap iface)).map CStr.text ∨ who = new)
    (entry : (String × String) × UInt64) (who : String) :
    (∃ other ∈ p.ifaces.items, ((p.modifyIface iface change).heap other).mod = entry.1.1 ∧
        ((p.modifyIface iface change).heap other).func = entry.1.2 ∧
        ((p.modifyIface iface change).heap other).ver = entry.2 ∧
        who ∈ (members ((p.modifyIface iface change).heap other)).map CStr.text) ↔
      (∃ other ∈ p.ifaces.items, (p.heap other).mod = entry.1.1 ∧
        (p.heap other).func = entry.1.2 ∧ (p.heap other).ver = entry.2 ∧
        who ∈ (members (p.heap other)).map CStr.text) ∨
      entry = (((p.heap iface).mod, (p.heap iface).func), (p.heap iface).ver) ∧ who = new := by
  have here : (p.modifyIface iface change).heap iface = change (p.heap iface) :=
    Function.update_self _ _ _
  have elsewhere : ∀ other, other ≠ iface →
      (p.modifyIface iface change).heap other = p.heap other :=
    fun other different => Function.update_of_ne different _ _
  simp only [modifyIface_fields keeps]
  constructor
  · rintro ⟨other, member, mod, func, ver, held⟩
    by_cases same : other = iface
    · subst same
      rw [here, adds] at held
      rcases held with already | now
      · exact Or.inl ⟨other, member, mod, func, ver, already⟩
      · rw [mod, func, ver]
        exact Or.inr ⟨rfl, now⟩
    · rw [elsewhere other same] at held
      exact Or.inl ⟨other, member, mod, func, ver, held⟩
  · rintro (⟨other, member, mod, func, ver, held⟩ | ⟨rfl, rfl⟩)
    · refine ⟨other, member, mod, func, ver, ?_⟩
      by_cases same : other = iface
      · subst same
        rw [here, adds]
        exact Or.inl held
      · rw [elsewhere other same]
        exact held
    · refine ⟨iface, listed, rfl, rfl, rfl, ?_⟩
      rw [here, adds]
      exact Or.inr rfl

end

theorem appendGlobal_texts (entry : Iface) (identity : CStr) (copy : Addr) (who : String) :
    who ∈ (Iface.printed (ifaceAppendGlobal entry identity copy).2).globals.map CStr.text ↔
      who ∈ entry.globals.map CStr.text ∨ who = identity.text := by
  rw [(printed_same _).globals, ifaceAppendGlobal_globals]
  split
  · rename_i listed
    constructor
    · exact Or.inl
    · rintro (already | rfl)
      · exact already
      · exact listed
  · simp only [List.map_append, List.mem_append, List.map_cons, List.map_nil, List.mem_singleton]

theorem provideGlobal_lists {mod func : String} {ver : UInt64} (registry : Registry p)
    (orderly : Orderly p) (run : provideGlobal fab mod func ver p = .ok q) :
    Lists ((mod, func), ver) (p.catalog fab.identity.text) (q.catalog fab.identity.text) := by
  obtain ⟨iface, middle, attaching, rfl, _⟩ := provideGlobal_ok registry run
  obtain ⟨version, taken, sameMod, sameFunc, sameVer, known, believed⟩ :=
    ifaceFor_taken registry orderly attaching fab.identity.text
  have listed := (ifaceFor_attached registry attaching).listed
  have keeps : ∀ entry : Iface,
      (Iface.printed (ifaceAppendGlobal entry fab.identity middle.brk).2).mod = entry.mod ∧
      (Iface.printed (ifaceAppendGlobal entry fab.identity middle.brk).2).func = entry.func ∧
      (Iface.printed (ifaceAppendGlobal entry fab.identity middle.brk).2).ver = entry.ver :=
    fun entry => ⟨rfl, rfl, rfl⟩
  refine ⟨version, taken, fun entry => ?_, fun entry => ?_⟩
  · exact (modifyIface_known (p := middle) keeps entry).trans (known entry)
  · rw [← believed]
    refine (modifyIface_lists (p := middle) keeps Iface.globals listed
      (appendGlobal_texts _ fab.identity middle.brk) entry fab.identity.text).trans ?_
    rw [sameMod, sameFunc, sameVer, and_iff_left rfl]
    rfl

theorem provideTriples_lists (registry : Registry p) (orderly : Orderly p)
    (run : provideTriples fab (offers.map flatOffer) p = .ok q) :
    ListsAll offers (p.catalog fab.identity.text) (q.catalog fab.identity.text) ∧
      Registry q ∧ Orderly q := by
  induction offers using List.reverseRecOn generalizing q with
  | nil =>
      cases run
      exact ⟨.nil _, registry, orderly⟩
  | append_singleton offers offer ih =>
      rw [List.map_append, List.map_singleton, flatOffer, provideTriples_append] at run
      split at run
      · cases run
      · rename_i middle earlier
        obtain ⟨lists, between, still⟩ := ih earlier
        exact ⟨lists.snoc (provideGlobal_lists between still run),
          between.provideGlobal run, still.provideGlobal between run⟩

theorem provideGlobal_settled {mod func : String} {ver : UInt64} (orderly : Orderly p)
    (printable : p.Printable)
    (settled : Settled (p.catalog fab.identity.text) ((mod, func), ver)) :
    ∃ q, provideGlobal fab mod func ver p = .ok q ∧ q = { p with heap := q.heap, brk := q.brk } ∧
      p.SameHeap q := by
  obtain ⟨version, _, above, least, iface, listed, sameMod, sameFunc, sameVer, named⟩ := settled
  have looks := orderly.looksUpLeast mod func ver
  have suits : Suits p mod func ver iface := ⟨listed, sameMod, sameFunc, sameVer ▸ above⟩
  cases found : checkInterface p.ifaces p.heap mod func ver with
  | none => exact absurd suits (looks.absent.mp found iface)
  | some other =>
      obtain ⟨others, first⟩ := (looks.found other).mp found
      have same : other = iface := by
        by_contra different
        have newer := first iface suits fun same => different same.symm
        have older := least (p.heap other).ver
          ⟨other, others.listed, others.mod, others.func, rfl⟩ others.above
        have version' : (p.heap iface).ver = version := sameVer
        rw [version'] at newer
        exact UInt64.not_le.mpr newer older
      subst same
      have listedAlready : (p.heap other).Same
          (ifaceAppendGlobal (p.heap other) fab.identity p.brk).2 :=
        ⟨rfl, rfl, rfl, rfl, by rw [ifaceAppendGlobal_globals, if_pos named]⟩
      refine ⟨_, provideGlobal_iff.mpr ⟨other, p, by simp only [ifaceFor, found], ?_, rfl⟩, rfl,
        Proxy.SameHeap.write p other (listedAlready.trans (printed_same _))⟩
      exact listedAlready.printable.mpr (printable other listed)

/-- What is settled is taken again, and changes nothing. -/
theorem provideTriples_settled (registry : Registry p) (orderly : Orderly p)
    (printable : p.Printable)
    (settled : ∀ offer ∈ offers, Settled (p.catalog fab.identity.text) offer) :
    ∃ q, provideTriples fab (offers.map flatOffer) p = .ok q ∧
      q = { p with heap := q.heap, brk := q.brk } ∧ p.SameHeap q := by
  induction offers generalizing p with
  | nil => exact ⟨p, rfl, rfl, Proxy.SameHeap.refl _⟩
  | cons offer offers ih =>
      obtain ⟨middle, provided, same, sameHeap⟩ := provideGlobal_settled orderly printable
        (settled offer List.mem_cons_self)
      have ifaces : middle.ifaces = p.ifaces := by rw [same]
      obtain ⟨q, run, later, laterHeap⟩ := ih (registry.provideGlobal provided)
        (orderly.provideGlobal registry provided)
        (printable_rule.frame _ _ ifaces sameHeap printable)
        (fun other member => by
          rw [catalog_congr ifaces sameHeap]
          exact settled other (List.mem_cons_of_mem _ member))
      refine ⟨q, ?_, ?_, sameHeap.trans laterHeap⟩
      · simp only [List.map_cons, flatOffer, provideTriples, provided]
        exact run
      · rw [later, same]

theorem globalNames_rule : RegistryRule GlobalNames := by
  constructor
  · intro p q ifaces same named iface listed held
    rw [(same iface).mod, (same iface).func]
    exact named iface (ifaces ▸ listed) ((same iface).globals ▸ held)
  · intro p q identity name function ver registry _ _ run named iface listed held
    obtain ⟨target, _, _, _, provided⟩ := provideLocal_ok registry run
    obtain ⟨item, member⟩ := List.exists_mem_of_ne_nil _ held
    have old := (provided.globals iface item member).resolve_right fun new => new.2
    have before : iface ∈ p.ifaces.items := by
      by_contra absent
      rw [(registry.unlisted iface absent).2] at old
      cases old
    obtain ⟨mod, func, _⟩ := provided.kept iface (registry.allocated iface before)
    rw [mod, func]
    exact named iface before (List.ne_nil_of_mem old)
  · intro p q fab mod func ver registry plainMod plainFunc run named iface listed held
    obtain ⟨target, _, _, _, provided⟩ := provideGlobal_ok registry run
    obtain ⟨item, member⟩ := List.exists_mem_of_ne_nil _ held
    rcases provided.globals iface item member with old | ⟨rfl, _⟩
    · have before : iface ∈ p.ifaces.items := by
        by_contra absent
        rw [(registry.unlisted iface absent).2] at old
        cases old
      obtain ⟨sameMod, sameFunc, _⟩ := provided.kept iface (registry.allocated iface before)
      rw [sameMod, sameFunc]
      exact named iface before (List.ne_nil_of_mem old)
    · rw [provided.sameMod, provided.sameFunc]
      exact ⟨plainMod.2, plainFunc.2⟩
  · intro p identity registry named iface listed held
    rw [unlisted_items registry] at listed
    have heap := unlisted_heap registry identity iface
    rw [heap.mod, heap.func]
    refine named iface (List.mem_of_mem_filter listed) fun empty => held ?_
    rw [unlisted_globals registry, empty, List.eraseP_nil]

theorem GlobalNames.full (named : GlobalNames p) {name : String}
    {offer : (String × String) × UInt64} (believed : (p.catalog name).believed offer) :
    offer.1.1 ≠ "" ∧ offer.1.2 ≠ "" := by
  obtain ⟨iface, listed, mod, func, _, held⟩ := believed
  rw [← mod, ← func]
  refine named iface listed fun empty => ?_
  rw [empty] at held
  cases held

theorem filterMap_offerPath
    (names : ∀ offer ∈ offers, ':' ∉ offer.1.1.toList ∧ ':' ∉ offer.1.2.toList)
    (versions : ∀ offer ∈ offers, 1 ≤ offer.2.toNat ∧ offer.2.toNat < 2 ^ 31) :
    (offers.map offerPath).filterMap pathTriple =
      (offers.filter fun offer => decide (offer.1.1 ≠ "" ∧ offer.1.2 ≠ "")).map flatOffer := by
  induction offers with
  | nil => rfl
  | cons offer offers ih =>
      have later := ih (fun other member => names other (List.mem_cons_of_mem _ member))
        fun other member => versions other (List.mem_cons_of_mem _ member)
      rw [List.map_cons, List.filterMap_cons, List.filter_cons]
      by_cases full : offer.1.1 ≠ "" ∧ offer.1.2 ≠ ""
      · rw [pathTriple_offerPath (names offer List.mem_cons_self)
          (versions offer List.mem_cons_self).2 full, if_pos (by simpa using full)]
        simp only [List.map_cons, later]
        rfl
      · have empty : offer.1.1 = "" ∨ offer.1.2 = "" := by
          by_contra neither
          exact full (not_or.mp neither)
        rw [pathTriple_empty (names offer List.mem_cons_self) empty,
          if_neg (by simpa using full)]
        exact later

theorem processResult_list (env : Env) (brings : BringsList p message offers)
    (unqueued : p.queue.lookup message.actionid = none) :
    ∃ fab, p.fabList.lookup message.identity = some fab ∧
      processResult env message p = provideTriples fab
        ((offers.filter fun offer => decide (offer.1.1 ≠ "" ∧ offer.1.2 ≠ "")).map flatOffer) p := by
  obtain ⟨fab, found⟩ := Option.isSome_iff_exists.mp (AList.lookup_isSome.mpr brings.fabric)
  refine ⟨fab, found, ?_⟩
  simp only [processResult, unqueued, processIfaceList, brings.paths, found, providePaths_eq,
    filterMap_offerPath brings.names brings.versions]

theorem BringsList.frame (brings : BringsList p message offers)
    (fabrics : message.identity ∈ q.fabList) : BringsList q message offers :=
  ⟨brings.foreign, fabrics, brings.paths, brings.names, brings.versions⟩

theorem BringsList.nonzero (brings : BringsList p message offers) {kept : List ((String × String) × UInt64)}
    (among : kept ⊆ offers) : ∀ triple ∈ kept.map flatOffer, triple.2.2 ≠ 0 := by
  intro triple member zero
  obtain ⟨offer, listed, rfl⟩ := List.mem_map.mp member
  have positive := (brings.versions offer (among listed)).1
  have nought : offer.2.toNat = 0 := congrArg UInt64.toNat zero
  omega

theorem arrived_catalog (message : Message) (p : Proxy) (name : String) :
    (p.arrived message).catalog name = p.catalog name := by
  simp only [Proxy.catalog, arrived_ifaces, arrived_heap]

theorem filter_full (full : ∀ offer ∈ offers, offer.1.1 ≠ "" ∧ offer.1.2 ≠ "") :
    (offers.filter fun offer => decide (offer.1.1 ≠ "" ∧ offer.1.2 ≠ "")) = offers :=
  List.filter_eq_self.mpr fun offer member => by simpa using full offer member

/-- A list that brings nothing but settled offers changes nothing. -/
theorem again_unchanged (env : Env) (registry : Registry p) (orderly : Orderly p)
    (printable : p.Printable) (brings : BringsList p message offers) (unqueued : p.queue.lookup message.actionid = none)
    (full : ∀ offer ∈ offers, offer.1.1 ≠ "" ∧ offer.1.2 ≠ "")
    (settled : ∀ offer ∈ offers, Settled (p.catalog message.identity) offer) :
    ∃ q, processResult env message (p.arrived message) = .ok q ∧ Unchanged message p q := by
  have there := brings.frame ((mem_arrived_fabList message message.identity).mpr brings.fabric)
  obtain ⟨fab, found, runs⟩ := processResult_list env there (by simpa using unqueued)
  have name := (registry.arrived message).fabKey _ fab found
  rw [filter_full full] at runs
  have arrivedOrderly : Orderly (p.arrived message) :=
    orderly_rule.same (by simp) (by simp) orderly
  obtain ⟨q, provided, same, sameHeap⟩ := provideTriples_settled
    (registry.arrived message) arrivedOrderly (printable_rule.same (by simp) (by simp) printable)
    fun offer member => by
      rw [arrived_catalog, name]
      exact settled offer member
  refine ⟨q, runs.trans provided, same, fun iface => ?_⟩
  rw [← arrived_heap message p]
  exact sameHeap iface

/-- A list under the `actionid` of a queued call is taken for its answer. -/
theorem processResult_foreign {stored : Message} (env : Env) (registry : Registry p)
    (queued : p.queue.lookup message.actionid = some stored) (foreign : message.isLocal = false) :
    ∃ after : Proxy, after.queue.lookup message.actionid = none ∧ ∀ q,
      processResult env message p = .ok q ↔
        (stored.isLocal = false → (invalidText message stored).length < 896) ∧ q = after := by
  have key : stored.actionid = message.actionid := (registry.calls _ stored queued).actionid
  simp only [processResult, queued, foreign]
  cases stored.isLocal with
  | true =>
      refine ⟨answerCaller env stored (messageTomsg message) p, by simp [answerCaller, key],
        fun q => ?_⟩
      simp only [Except.ok.injEq, Bool.true_eq_false, false_imp_iff, true_and]
      exact eq_comm
  | false =>
      exact ⟨p.deleteCall stored.actionid, by simp [key], fun q => by
        simp only [invalidState_ok, true_imp_iff]⟩

theorem arrived_dumps (message : Message) (p : Proxy) (identity : String)
    (offers : List (String × String × UInt64)) :
    GlobalDumpsFit (p.arrived message) identity offers ↔ GlobalDumpsFit p identity offers := by
  simp only [GlobalDumpsFit, GlobalDumpFits, Proxy.attachedTo, arrived_ifaces, arrived_heap]

structure Tidy (p : Proxy) : Prop where
  registry : Registry p
  orderly : Orderly p
  named : GlobalNames p
  printable : p.Printable

theorem Tidy.arrived (tidy : Tidy p) (message : Message) : Tidy (p.arrived message) where
  registry := tidy.registry.arrived message
  orderly := orderly_rule.same (by simp) (by simp) tidy.orderly
  named := globalNames_rule.same (by simp) (by simp) tidy.named
  printable := printable_rule.same (by simp) (by simp) tidy.printable

theorem settled_believed {name : String}
    (all : ∀ offer ∈ offers, (p.catalog name).believed offer) :
    ∀ offer ∈ offers, Settled (p.catalog name) offer := fun offer member =>
  ⟨offer.2, believed_known _ _ _ (all offer member), le_refl _, fun _ _ => id, all offer member⟩

/-- The list is taken for an answer at first, and read when it comes again. -/
theorem snapshot_queued {stored : Message} (tidy : Tidy p) (brings : BringsList p message offers)
    (waiting : p.queue.lookup message.actionid = some stored) (env again : Env) :
    Snapshot env again message offers p ↔ TakenExactly p message offers := by
  have there := brings.frame ((mem_arrived_fabList message message.identity).mpr brings.fabric)
  have tidy' := tidy.arrived message
  have queued : (p.arrived message).queue.lookup message.actionid = some stored := by
    rwa [arrived_queue]
  obtain ⟨q, gone, runs⟩ := processResult_foreign env tidy'.registry queued brings.foreign
  have catalog (calm : Calm (p.arrived message) q) :
      q.catalog message.identity = p.catalog message.identity := by
    rw [catalog_congr calm.ifaces calm.sameHeap, arrived_catalog]
  constructor
  · rintro ⟨other, run, believed, _⟩
    obtain ⟨logs, rfl⟩ := (runs other).mp run
    rw [catalog (processResult_calm queued run)] at believed
    have all : ∀ offer ∈ offers, (p.catalog message.identity).believed offer :=
      fun offer => (believed offer).mpr
    obtain ⟨fab, found⟩ := Option.isSome_iff_exists.mp (AList.lookup_isSome.mpr there.fabric)
    have name := tidy'.registry.fabKey _ fab found
    have known : ∀ offer ∈ offers,
        Settled ((p.arrived message).catalog fab.identity.text) offer := by
      rw [arrived_catalog, name]
      exact settled_believed all
    obtain ⟨_, provided, _⟩ :=
      provideTriples_settled tidy'.registry tidy'.orderly tidy'.printable known
    have dumps := provideTriples_fits tidy'.registry provided
    rw [arrived_dumps, name] at dumps
    exact ⟨fun offer held => (believed offer).mp held,
      fun offer member => tidy.named.full (all offer member),
      fun earlier offer later split' _ => Or.inl (believed_known _ _ _
        (all offer (by simp [split']))),
      dumps, fun _ => all, fun other found => by
        cases waiting.symm.trans found
        exact logs⟩
  · intro taken
    have all := taken.unqueued (ZHash.mem_of_lookup waiting)
    have run := (runs q).mpr ⟨taken.logs stored waiting, rfl⟩
    have calm := processResult_calm queued run
    refine ⟨q, run, fun offer => ?_, ?_⟩
    · rw [catalog calm]
      exact ⟨taken.nothing offer, all offer⟩
    · have fabrics : message.identity ∈ q.fabList := by
        rw [calm.fabList]
        exact there.fabric
      refine again_unchanged again (tidy'.registry.calm calm)
        (orderly_rule.calm calm tidy'.orderly) (printable_rule.calm calm tidy'.printable)
        (brings.frame fabrics) gone taken.names ?_
      rw [catalog calm]
      exact settled_believed all

theorem snapshot_unqueued (tidy : Tidy p) (brings : BringsList p message offers)
    (unqueued : p.queue.lookup message.actionid = none) (env again : Env) :
    Snapshot env again message offers p ↔ TakenExactly p message offers := by
  have there := brings.frame ((mem_arrived_fabList message message.identity).mpr brings.fabric)
  have tidy' := tidy.arrived message
  have queued : (p.arrived message).queue.lookup message.actionid = none := by
    rwa [arrived_queue]
  obtain ⟨fab, found, runs⟩ := processResult_list env there queued
  have name := tidy'.registry.fabKey _ fab found
  constructor
  · rintro ⟨q, run, believed, _⟩
    have provided := runs.symm.trans run
    have paths : providePaths fab (offers.map offerPath) (p.arrived message) = .ok q := by
      rw [providePaths_eq, filterMap_offerPath brings.names brings.versions]
      exact provided
    have namedAfter := globalNames_rule.paths tidy'.registry
      (messageGetIfaceList_plain brings.paths) paths tidy'.named
    have full : ∀ offer ∈ offers, offer.1.1 ≠ "" ∧ offer.1.2 ≠ "" := fun offer member =>
      namedAfter.full ((believed offer).mpr member)
    rw [filter_full full] at provided
    have dumps := provideTriples_fits tidy'.registry provided
    rw [arrived_dumps, name] at dumps
    obtain ⟨lists, _, _⟩ := provideTriples_lists tidy'.registry tidy'.orderly provided
    rw [arrived_catalog, name] at lists
    obtain ⟨nothing, exact'⟩ := (lists.snapshot_iff (believed_known p _)).mp believed
    refine ⟨nothing, full, exact', dumps, fun member => ?_, fun stored found => ?_⟩
    · rw [← AList.lookup_isSome, unqueued] at member
      cases member
    · cases unqueued.symm.trans found
  · intro taken
    rw [filter_full taken.names] at runs
    obtain ⟨q, provided⟩ := provideTriples_total fab tidy'.registry (brings.nonzero fun _ => id)
      (by
        rw [arrived_dumps, name]
        exact taken.dumps)
    have run := runs.trans provided
    have paths : providePaths fab (offers.map offerPath) (p.arrived message) = .ok q := by
      rw [providePaths_eq, filterMap_offerPath brings.names brings.versions,
        filter_full taken.names]
      exact provided
    have extended := providePaths_extends tidy'.registry paths
    obtain ⟨lists, after, still⟩ := provideTriples_lists tidy'.registry tidy'.orderly provided
    rw [arrived_catalog, name] at lists
    refine ⟨q, run, (lists.snapshot_iff (believed_known p _)).mpr ⟨taken.nothing, taken.exact⟩,
      ?_⟩
    refine again_unchanged again after still
      (printable_rule.paths tidy'.registry (messageGetIfaceList_plain brings.paths) paths
        tidy'.printable) (brings.frame ?_) ?_ taken.names lists.settled
    · rw [extended.same]
      exact there.fabric
    · rw [extended.same]
      exact queued

theorem snapshot_iff (tidy : Tidy p) (brings : BringsList p message offers) (env again : Env) :
    Snapshot env again message offers p ↔ TakenExactly p message offers := by
  cases queued : p.queue.lookup message.actionid with
  | some stored => exact snapshot_queued tidy brings queued env again
  | none => exact snapshot_unqueued tidy brings queued env again

theorem tidy_reaches {guard : Proxy → Env × Event → Prop}
    (reached : Reaches (fabric conf) guard p) : Tidy p where
  registry := registry_reaches reached
  orderly := orderly_rule.reaches (reaches_registrySystem reached) orderly_new
  named := globalNames_rule.reaches (reaches_registrySystem reached)
    fun _ listed => absurd listed List.not_mem_nil
  printable := printable_reaches reached

/-- In every reachable state a list of interfaces is taken for a snapshot
exactly when it says nothing less than before, nothing that a newer version would
hide, and no more than can be dumped. -/
theorem ifaceList_snapshot {guard : Proxy → Env × Event → Prop}
    (reached : Reaches (fabric conf) guard p) (brings : BringsList p message offers)
    (env again : Env) :
    Snapshot env again message offers p ↔ TakenExactly p message offers :=
  snapshot_iff (tidy_reaches reached) brings env again

def offersOne : Message :=
  messageNew 0 1 false peerName (packIfaceList ["mod:f:1"] "ifaces") "result" "ifaces"

def metPeer : List (Env × Event) := [(early, .beacon ("modbus@" ++ peerName))]

def newerHere : List (Env × Event) :=
  metPeer ++ [(early, .localMsg (introduceOf worker "mod" 77 [("f", 3)]) "yes")]

theorem offersOne_brings (fabrics : peerName ∈ p.fabList) :
    BringsList p offersOne [(("mod", "f"), 1)] where
  foreign := rfl
  fabric := fabrics
  paths := rfl
  names := by decide
  versions := by decide

theorem ifaceList_snapshot_met :
    Snapshot early late offersOne [(("mod", "f"), 1)] (fabricAfter plainConf metPeer) := by
  have reached : Reaches (fabric plainConf) anything (fabricAfter plainConf metPeer) :=
    fabricAfter_reaches (fun _ _ _ => trivial) (by decide)
  have nobody : (fabricAfter plainConf metPeer).ifaces.items = [] := by decide
  refine (ifaceList_snapshot reached (offersOne_brings (by decide)) early late).mpr
    ⟨?_, by decide, ?_, ?_, ?_, ?_⟩
  · rintro offer ⟨iface, listed, _⟩
    rw [nobody] at listed
    cases listed
  · refine exact_snoc.mpr ⟨exact_nil _, fun _ => Or.inr fun version _ => ⟨?_, by simp⟩⟩
    rintro ⟨iface, listed, _⟩
    rw [nobody] at listed
    cases listed
  · intro earlier offer later split'
    cases earlier with
    | nil =>
        cases split'
        unfold GlobalDumpFits
        decide
    | cons first earlier => simp at split'
  · intro queued
    exact absurd queued (by decide)
  · intro stored queued
    exact absurd (ZHash.mem_of_lookup queued) (by decide)

theorem ifaceList_hidden :
    ¬ ∀ conf p message offers, Reaches (fabric conf) anything p → BringsList p message offers →
      ∀ env again, Snapshot env again message offers p := by
  intro always
  have reached : Reaches (fabric plainConf) anything (fabricAfter plainConf newerHere) :=
    fabricAfter_reaches (fun _ _ _ => trivial) (by decide)
  have brings := offersOne_brings (p := fabricAfter plainConf newerHere) (by decide)
  have taken := (snapshot_iff (tidy_reaches reached) brings early late).mp
    (always _ _ _ _ reached brings early late)
  have items : (fabricAfter plainConf newerHere).ifaces.items = [3] := by decide
  rcases taken.exact [] (("mod", "f"), 1) [] rfl (by simp) with known | newest
  · obtain ⟨iface, listed, _, _, ver⟩ := known
    rw [items, List.mem_singleton] at listed
    subst listed
    exact absurd ver (by decide)
  · refine (newest 3 (by decide)).1 ⟨3, ?_, ?_, ?_, ?_⟩
    · rw [items]
      exact List.mem_singleton_self 3
    all_goals decide

end

end ModBus
