import Mathlib.Data.List.Permutation
import ModBus.Grouping
import ModBus.Snapshot

/-! Introductions in different orders. A function's providers are grouped by
version, so what matters is whether the versions were known before. -/

namespace ModBus

open Libc Czmq Transition Offers

def Proxy.groups (p : Proxy) : Groups String (String × String) UInt64 where
  known entry := ∃ iface ∈ p.ifaces.items,
    (p.heap iface).mod = entry.1.1 ∧ (p.heap iface).func = entry.1.2 ∧ (p.heap iface).ver = entry.2
  member entry identity := ∃ iface ∈ p.ifaces.items,
    (p.heap iface).mod = entry.1.1 ∧ (p.heap iface).func = entry.1.2 ∧
      (p.heap iface).ver = entry.2 ∧ identity ∈ (p.heap iface).locals.map CStr.text

inductive IntroducesAll (conf : Config) : List (Message × String) → Proxy → Proxy → Prop
  | nil (p : Proxy) : IntroducesAll conf [] p p
  | cons {env message answer rest p q r} : processIntroduce conf env message answer p = .ok q →
      IntroducesAll conf rest q r → IntroducesAll conf ((message, answer) :: rest) p r

def Offered (conf : Config) (intro : Message × String) (key : String × String) (ver : UInt64) :
    Prop :=
  ∃ pid provides value, introduceRequest intro.1 = .ok (some (key.1, pid)) ∧
    (conf.debug = true ∨ intro.2 ≠ "no") ∧ messageGetProvides intro.1 = .ok (some provides) ∧
    provides.lookup key.2 = some value ∧ value.version = .ok ver

def NonzeroProvides (message : Message) : Prop :=
  ∀ provides, messageGetProvides message = .ok (some provides) → ∀ function value,
    provides.lookup function = some value → ∃ ver, value.version = .ok ver ∧ ver ≠ 0

def HandledInAnyOrder (conf : Config) (intros : List (Message × String)) (p : Proxy) : Prop :=
  ∀ order, order.Perm intros → ∃ q, IntroducesAll conf order p q

def Proxy.servers (p : Proxy) (mod func : String) (ver : UInt64) : Set String :=
  fun identity => ∃ iface, checkInterface p.ifaces p.heap mod func ver = some iface ∧
    identity ∈ (p.heap iface).locals.map CStr.text

def OrderIndependent (conf : Config) (intros : List (Message × String)) (p : Proxy) : Prop :=
  ∀ first second q r, first.Perm intros → second.Perm intros → IntroducesAll conf first p q →
    IntroducesAll conf second p r → ∀ mod func ver, q.servers mod func ver = r.servers mod func ver

def LowerKnown (conf : Config) (intros : List (Message × String)) (p : Proxy) : Prop :=
  ∀ lower ∈ intros, ∀ higher ∈ intros, ∀ key low high, Offered conf lower key low →
    Offered conf higher key high → low < high →
    checkInterface p.ifaces p.heap key.1 key.2 low ≠ none

section

variable {conf : Config} {env : Env} {p q r : Proxy} {message : Message} {answer : String}
  {intro : Message × String} {intros : List (Message × String)}
  {offers : List (String × (String × String) × UInt64)}

theorem groups_congr (ifaces : q.ifaces = p.ifaces) (same : p.SameHeap q) : q.groups = p.groups := by
  have fields : ∀ iface, (q.heap iface).mod = (p.heap iface).mod ∧
      (q.heap iface).func = (p.heap iface).func ∧ (q.heap iface).ver = (p.heap iface).ver ∧
      (q.heap iface).locals = (p.heap iface).locals := fun iface =>
    ⟨(same iface).mod, (same iface).func, (same iface).ver, (same iface).locals⟩
  simp only [Proxy.groups, ifaces, fields]

theorem servers_iff (orderly : Orderly p) (mod func : String) (ver : UInt64) (identity : String) :
    p.servers mod func ver identity ↔ p.groups.Serves ((mod, func), ver) identity := by
  have looks := orderly.looksUpLeast mod func ver
  constructor
  · rintro ⟨iface, found, member⟩
    obtain ⟨suits, least⟩ := (looks.found iface).mp found
    refine ⟨(p.heap iface).ver, ⟨iface, suits.listed, suits.mod, suits.func, rfl⟩, suits.above, ?_,
      iface, suits.listed, suits.mod, suits.func, rfl, member⟩
    rintro version ⟨other, listed, sameMod, sameFunc, rfl⟩ above
    by_cases here : other = iface
    · rw [here]
    · exact UInt64.le_of_lt (least other ⟨listed, sameMod, sameFunc, above⟩ here)
  · rintro ⟨version, _, above, least, iface, listed, sameMod, sameFunc, sameVer, member⟩
    have version' : (p.heap iface).ver = version := sameVer
    subst version'
    have suits : Suits p mod func ver iface := ⟨listed, sameMod, sameFunc, above⟩
    cases found : checkInterface p.ifaces p.heap mod func ver with
    | none => exact absurd suits (looks.absent.mp found iface)
    | some other =>
        obtain ⟨others, first⟩ := (looks.found other).mp found
        have same : other = iface := by
          by_contra different
          have newer := first iface suits fun same => different same.symm
          have older := least (p.heap other).ver
            ⟨other, others.listed, others.mod, others.func, rfl⟩ others.above
          exact UInt64.not_le.mpr newer older
        subst same
        exact ⟨other, found, member⟩

theorem appendLocal_texts (entry : Iface) (identity : CStr) (who : String) :
    who ∈ (Iface.printed (ifaceAppendLocal entry identity).2).locals.map CStr.text ↔
      who ∈ entry.locals.map CStr.text ∨ who = identity.text := by
  rw [(printed_same _).locals, ifaceAppendLocal_locals]
  split
  · rename_i listed
    constructor
    · exact Or.inl
    · rintro (already | rfl)
      · exact already
      · exact listed
  · simp only [List.map_append, List.mem_append, List.map_cons, List.map_nil, List.mem_singleton]

theorem ifaceFor_members {mod func : String} {ver : UInt64} {iface : Addr} (registry : Registry p)
    (attaching : ifaceFor mod func ver p = .ok (iface, q)) (entry : (String × String) × UInt64)
    (who : String) : q.groups.member entry who ↔ p.groups.member entry who := by
  have attached := ifaceFor_attached registry attaching
  have used : ∀ other ∈ p.ifaces.items, q.heap other = p.heap other := fun other listed =>
    attached.used other (registry.allocated other listed)
  have more : ∀ other ∈ p.ifaces.items, other ∈ q.ifaces.items := by
    intro other listed
    rcases attached.items with same | grown
    · rw [same]
      exact listed
    · rw [grown]
      exact List.mem_append_left _ listed
  constructor
  · rintro ⟨other, listed, mod, func, ver, member⟩
    have old : other ∈ p.ifaces.items := by
      by_contra new
      rw [attached.locals, (registry.unlisted other new).1] at member
      cases member
    rw [used other old] at mod func ver member
    exact ⟨other, old, mod, func, ver, member⟩
  · rintro ⟨other, listed, rest⟩
    refine ⟨other, more other listed, ?_⟩
    rw [used other listed]
    exact rest

theorem provideLocal_joins {identity : CStr} {name function : String} {ver : UInt64}
    (registry : Registry p) (orderly : Orderly p)
    (run : provideLocal identity name function ver p = .ok q) :
    Joins (identity.text, (name, function), ver) p.groups q.groups := by
  obtain ⟨iface, middle, attaching, rfl, _⟩ := provideLocal_ok registry run
  have listed := (ifaceFor_attached registry attaching).listed
  obtain ⟨version, taken, sameMod, sameFunc, sameVer, known, _⟩ :=
    ifaceFor_taken registry orderly attaching identity.text
  have keeps : ∀ entry : Iface,
      (Iface.printed (ifaceAppendLocal entry identity).2).mod = entry.mod ∧
      (Iface.printed (ifaceAppendLocal entry identity).2).func = entry.func ∧
      (Iface.printed (ifaceAppendLocal entry identity).2).ver = entry.ver :=
    fun entry => ⟨rfl, rfl, rfl⟩
  have index : (p.groups.catalog identity.text).known = (p.catalog identity.text).known := rfl
  refine ⟨version, taken.congr index, fun entry => ?_, fun entry who => ?_⟩
  · exact (modifyIface_known (p := middle) keeps entry).trans (known entry)
  · rw [← ifaceFor_members registry attaching]
    refine (modifyIface_lists (p := middle) keeps Iface.locals listed
      (appendLocal_texts _ identity) entry who).trans ?_
    rw [sameMod, sameFunc, sameVer]
    rfl

theorem provideFunctions_joins {identity : CStr} {name : String} {provides : ZHash Unpacked}
    {functions : List String} (registry : Registry p) (orderly : Orderly p)
    (apart : p.Apart identity) (named : Plain name) (called : ∀ function ∈ functions, Plain function)
    (run : provideFunctions identity name provides functions p = .ok q) :
    ∃ offers, JoinsAll offers p.groups q.groups ∧
      offers.map (fun offer => offer.2.1) = functions.map (fun function => (name, function)) ∧
      ∀ offer, offer ∈ offers ↔ ∃ function ∈ functions, ∃ value ver,
        provides.lookup function = some value ∧ value.version = .ok ver ∧
          offer = (identity.text, (name, function), ver) := by
  induction functions generalizing p with
  | nil =>
      cases run
      exact ⟨[], .nil _, rfl, by simp⟩
  | cons function functions ih =>
      simp only [provideFunctions] at run
      split at run
      · cases run
      · rename_i value found
        split at run
        · cases run
        · rename_i ver version
          split at run
          · cases run
          · rename_i middle provision
            obtain ⟨between, still⟩ := registry.provideLocal apart provision
            have ordered := orderly_rule.provideLocal p middle identity name function ver registry
              named (called function List.mem_cons_self) provision orderly
            obtain ⟨offers, joins, keys, members⟩ := ih between ordered still
              (fun other member => called other (List.mem_cons_of_mem _ member)) run
            have first := joinsAll_singleton.mpr (provideLocal_joins registry orderly provision)
            refine ⟨_, first.append joins, by simp [keys], fun offer => ?_⟩
            rw [List.singleton_append, List.mem_cons, members]
            simp only [List.mem_cons, or_and_right, exists_or, exists_eq_left, found,
              Option.some.injEq]
            simp [version]

structure Joining (conf : Config) (intro : Message × String)
    (offers : List (String × (String × String) × UInt64)) : Prop where
  members : ∀ offer, offer ∈ offers ↔
    offer.1 = intro.1.identity ∧ Offered conf intro offer.2.1 offer.2.2
  once : (offers.map fun offer => offer.2.1).Nodup

theorem Offered.unique {key : String × String} {low high : UInt64} (first : Offered conf intro key low)
    (second : Offered conf intro key high) : low = high := by
  obtain ⟨_, provides, value, _, _, read, found, version⟩ := first
  obtain ⟨_, provides', value', _, _, read', found', version'⟩ := second
  rw [read, Except.ok.injEq, Option.some.injEq] at read'
  subst read'
  rw [found, Option.some.injEq] at found'
  subst found'
  rw [version, Except.ok.injEq] at version'
  exact version'

theorem joining_nothing (calm : Calm p q) (none : ∀ key ver, ¬ Offered conf intro key ver) :
    ∃ offers, JoinsAll offers p.groups q.groups ∧ Joining conf intro offers := by
  refine ⟨[], ?_, ?_, List.nodup_nil⟩
  · rw [groups_congr calm.ifaces calm.sameHeap]
    exact .nil _
  · intro offer
    simp only [List.not_mem_nil, false_iff, not_and]
    exact fun _ => none _ _

theorem joining_provided {name : String} {pid : Int32} {desc : Option String}
    {provides : ZHash Unpacked} {middle : Proxy} (registry : Registry p) (orderly : Orderly p)
    (request : introduceRequest message = .ok (some (name, pid)))
    (accepted : conf.debug = true ∨ answer ≠ "no")
    (introduces : Introduces env message name pid desc provides p middle q) :
    ∃ offers, JoinsAll offers p.groups q.groups ∧ Joining conf (message, answer) offers := by
  obtain ⟨before, apart⟩ := registry.introducing message middle.procman
  have ordered : Orderly (p.introducing middle.procman) := orderly_rule.same (p := p) rfl rfl orderly
  have keys : ∀ function ∈ env.visit provides.keys, function ∈ provides := fun function member =>
    AList.mem_keys.mpr ((env.visit_perm _).mem_iff.mp member)
  obtain ⟨offers, joins, once, members⟩ := provideFunctions_joins before ordered apart
    (bodyString_plain introduces.named)
    (fun function member => messageGetProvides_plain introduces.provided function
      (keys function member)) introduces.functions
  have start : (p.introducing middle.procman).groups = p.groups := rfl
  have finish : q.groups = middle.groups := by
    rw [introduces.registers]
    exact groups_congr (by simp [registerModule]) fun iface => by
      simpa [registerModule] using Iface.Same.refl _
  rw [start, ← finish] at joins
  refine ⟨offers, joins, ?_, ?_⟩
  · intro offer
    rw [members]
    constructor
    · rintro ⟨function, _, value, ver, found, version, rfl⟩
      exact ⟨rfl, pid, provides, value, request, accepted, introduces.provided, found, version⟩
    · rintro ⟨who, other, provides', value, request', _, read, found, version⟩
      rw [request, Except.ok.injEq, Option.some.injEq, Prod.mk.injEq] at request'
      rw [introduces.provided, Except.ok.injEq, Option.some.injEq] at read
      subst read
      refine ⟨offer.2.1.2, (env.visit_perm _).mem_iff.mpr
        (AList.mem_keys.mp (ZHash.mem_of_lookup found)), value, offer.2.2, found, version, ?_⟩
      rw [request'.1, ← who]
  · rw [once]
    have distinct := (env.visit_perm provides.keys).nodup_iff.mpr provides.nodupKeys
    exact distinct.map fun first second same => congrArg Prod.snd same

/-- Handling an introduction joins its offers, all of them or, if it is not
accepted, none. -/
theorem processIntroduce_joins (registry : Registry p) (orderly : Orderly p)
    (run : processIntroduce conf env message answer p = .ok q) :
    Registry q ∧ Orderly q ∧ ∃ offers, JoinsAll offers p.groups q.groups ∧
      Joining conf (message, answer) offers := by
  unfold processIntroduce at run
  split at run
  · cases run
  · rename_i request
    cases run
    refine ⟨registry, orderly, joining_nothing (.refl p) fun key ver => ?_⟩
    rintro ⟨pid, _, _, accepted, _⟩
    rw [request] at accepted
    cases accepted
  · rename_i name pid request
    obtain ⟨named, numbered, _⟩ := introduceRequest_some request
    have asked : Calm p (zstrSend (.checkPid (decimal pid.toInt)) p) := .zstrSend _ _
    have registry' := registry.calm asked
    have orderly' := orderly_rule.calm asked orderly
    rcases introduceAnswered_ok named numbered run with
      ⟨rfl, nothing⟩ | ⟨accepted, desc, provides, middle, introduces⟩
    · refine ⟨registry', orderly', joining_nothing asked fun key ver => ?_⟩
      rintro ⟨_, provides, value, _, accepted, read, found, _⟩
      have empty := nothing provides accepted read
      have member : key.2 ∈ provides.keys := AList.mem_keys.mpr (ZHash.mem_of_lookup found)
      rw [empty] at member
      cases member
    · have joined := joining_provided registry' orderly' request accepted introduces
      exact ⟨registry'.introduces introduces, orderly_rule.introduces registry' introduces orderly',
        joined⟩

theorem introducesAll_joins (run : IntroducesAll conf intros p q) (registry : Registry p)
    (orderly : Orderly p) :
    Orderly q ∧ ∃ offers, JoinsAll offers p.groups q.groups ∧ ∀ offer, offer ∈ offers ↔
      ∃ intro ∈ intros, offer.1 = intro.1.identity ∧ Offered conf intro offer.2.1 offer.2.2 := by
  induction run with
  | nil => exact ⟨orderly, [], .nil _, by simp⟩
  | cons first _ ih =>
      obtain ⟨between, ordered, offers, joins, joining⟩ := processIntroduce_joins registry orderly first
      obtain ⟨last, more, later, members⟩ := ih between ordered
      refine ⟨last, offers ++ more, joins.append later, fun offer => ?_⟩
      rw [List.mem_append, joining.members, members]
      simp only [List.mem_cons, or_and_right, exists_or, exists_eq_left]

theorem unknown_older (orderly : Orderly p) {key : String × String} {low : UInt64}
    (absent : checkInterface p.ifaces p.heap key.1 key.2 low = none) (version : UInt64)
    (known : p.groups.known (key, version)) : version < low := by
  obtain ⟨iface, listed, mod, func, ver⟩ := known
  have version' : (p.heap iface).ver = version := ver
  refine UInt64.not_le.mp fun above => ?_
  exact (orderly.looksUpLeast _ _ _).absent.mp absent iface
    ⟨listed, mod, func, version' ▸ above⟩

/-- An introduction's offer of one function stands in its offers once. -/
theorem Joining.split (joining : Joining conf intro offers) {key : String × String} {ver : UInt64}
    (offered : Offered conf intro key ver) : ∃ earlier later,
    offers = earlier ++ (intro.1.identity, key, ver) :: later ∧
      ∀ offer ∈ earlier, offer.2.1 ≠ key := by
  have member : (intro.1.identity, key, ver) ∈ offers := (joining.members _).mpr ⟨rfl, offered⟩
  obtain ⟨earlier, later, rfl⟩ := List.append_of_mem member
  refine ⟨earlier, later, rfl, fun offer among same => ?_⟩
  have once := joining.once
  rw [List.map_append, List.map_cons, List.nodup_append] at once
  exact once.2.2 offer.2.1 (List.mem_map_of_mem among) key List.mem_cons_self same

/-- The module with the lower version comes first, and opens an interface that
the other one is not in. -/
theorem lower_introduced {lower higher : Message × String} {rest : List (Message × String)}
    {key : String × String} {low high : UInt64} (registry : Registry p) (orderly : Orderly p)
    (distinct : ((lower :: higher :: rest).map fun intro => intro.1.identity).Nodup)
    (run : IntroducesAll conf (lower :: higher :: rest) p q) (offeredLow : Offered conf lower key low)
    (offeredHigh : Offered conf higher key high) (below : low < high)
    (absent : checkInterface p.ifaces p.heap key.1 key.2 low = none) :
    ¬ q.groups.Serves (key, low) higher.1.identity := by
  simp only [List.map_cons, List.nodup_cons, List.mem_cons, not_or] at distinct
  obtain ⟨⟨different, _⟩, alone, _⟩ := distinct
  cases run with
  | @cons env message answer _ _ middle _ first later =>
      obtain ⟨between, ordered, offers, joins, joining⟩ := processIntroduce_joins registry orderly first
      obtain ⟨_, more, others, members⟩ := introducesAll_joins later between ordered
      obtain ⟨earlier, following, rfl, aside⟩ := joining.split offeredLow
      have all := joins.append others
      rw [List.append_assoc, List.cons_append] at all
      refine all.lower_first ?_ (unknown_older orderly absent) aside (fun same => different same.symm) ?_
      · rintro entry who ⟨iface, listed, mod, func, ver, _⟩
        exact ⟨iface, listed, mod, func, ver⟩
      · intro offer among who same
        rcases List.mem_append.mp among with own | further
        · have mine := ((joining.members offer).mp (by simp [own])).1
          exact absurd (mine.symm.trans who) different
        · obtain ⟨intro, member, named, offered⟩ := (members offer).mp further
          rcases List.mem_cons.mp member with rfl | behind
          · have same' : offer.2.1 = key := same
            rw [same'] at offered
            rw [offered.unique offeredHigh]
            exact below
          · exact absurd (List.mem_map.mpr ⟨intro, behind, named.symm.trans who⟩) alone

/-- The module with the higher version comes first, and serves the lower, too. -/
theorem higher_introduced {higher : Message × String} {rest : List (Message × String)}
    {key : String × String} {low high : UInt64} (registry : Registry p) (orderly : Orderly p)
    (run : IntroducesAll conf (higher :: rest) p q) (offered : Offered conf higher key high)
    (below : low < high) (absent : checkInterface p.ifaces p.heap key.1 key.2 low = none) :
    q.groups.Serves (key, low) higher.1.identity := by
  cases run with
  | @cons env message answer _ _ middle _ first later =>
      obtain ⟨between, ordered, offers, joins, joining⟩ := processIntroduce_joins registry orderly first
      obtain ⟨_, more, others, _⟩ := introducesAll_joins later between ordered
      obtain ⟨earlier, following, rfl, aside⟩ := joining.split offered
      have all := joins.append others
      rw [List.append_assoc, List.cons_append] at all
      exact all.higher_first (unknown_older orderly absent) below aside

/-- Of two versions of one function the lower must have been served before, else
the two modules find each other in one order and not in the other. -/
theorem OrderIndependent.lowerKnown (registry : Registry p) (orderly : Orderly p)
    (distinct : (intros.map fun intro => intro.1.identity).Nodup)
    (handled : HandledInAnyOrder conf intros p)
    (independent : OrderIndependent conf intros p) : LowerKnown conf intros p := by
  intro lower lowerIn higher higherIn key low high offeredLow offeredHigh below absent
  have different : higher ≠ lower := by
    rintro rfl
    exact absurd (offeredLow.unique offeredHigh) (ne_of_lt below)
  have front : ∀ {intro : Message × String} {among : List (Message × String)}, intro ∈ among →
      ∃ rest, among.Perm (intro :: rest) := by
    intro intro among member
    obtain ⟨before, after, rfl⟩ := List.append_of_mem member
    exact ⟨before ++ after, List.perm_middle⟩
  obtain ⟨others, firstPerm⟩ := front lowerIn
  have among : higher ∈ others :=
    (List.mem_cons.mp (firstPerm.mem_iff.mp higherIn)).resolve_left different
  obtain ⟨rest, restPerm⟩ := front among
  have perm : intros.Perm (lower :: higher :: rest) := firstPerm.trans (restPerm.cons lower)
  have swapped : intros.Perm (higher :: lower :: rest) := perm.trans (.swap _ _ _)
  obtain ⟨q, lowerFirst⟩ := handled _ perm.symm
  obtain ⟨r, higherFirst⟩ := handled _ swapped.symm
  have out := lower_introduced registry orderly ((perm.map _).nodup_iff.mp distinct) lowerFirst
    offeredLow offeredHigh below absent
  have inside := higher_introduced registry orderly higherFirst offeredHigh below absent
  have same := independent _ _ q r perm.symm swapped.symm lowerFirst higherFirst key.1 key.2 low
  have orderedLow := (introducesAll_joins lowerFirst registry orderly).1
  have orderedHigh := (introducesAll_joins higherFirst registry orderly).1
  refine out ((servers_iff orderedLow _ _ _ _).mp ?_)
  rw [same]
  exact (servers_iff orderedHigh _ _ _ _).mpr inside

theorem LowerKnown.independent (registry : Registry p) (orderly : Orderly p)
    (known : LowerKnown conf intros p) : OrderIndependent conf intros p := by
  intro first second q r firstPerm secondPerm firstRun secondRun mod func ver
  obtain ⟨ordered, offers, joins, members⟩ := introducesAll_joins firstRun registry orderly
  obtain ⟨ordered', offers', joins', members'⟩ := introducesAll_joins secondRun registry orderly
  have compatible : Compatible p.groups offers := by
    intro lower lowerIn higher higherIn sameKey below
    obtain ⟨low, lowIn, _, offeredLow⟩ := (members lower).mp lowerIn
    obtain ⟨high, highIn, _, offeredHigh⟩ := (members higher).mp higherIn
    rw [← sameKey] at offeredHigh
    have found := known low (firstPerm.mem_iff.mp lowIn) high (firstPerm.mem_iff.mp highIn) _ _ _
      offeredLow offeredHigh below
    obtain ⟨iface, found⟩ := Option.ne_none_iff_exists'.mp found
    obtain ⟨suits, _⟩ := ((orderly.looksUpLeast _ _ _).found iface).mp found
    exact ⟨(p.heap iface).ver, ⟨iface, suits.listed, suits.mod, suits.func, rfl⟩, suits.above⟩
  have same : r.groups = q.groups := by
    refine joins.order_independent compatible (fun offer => ?_) joins'
    rw [members, members']
    exact exists_congr fun intro => and_congr_left fun _ =>
      secondPerm.mem_iff.trans firstPerm.mem_iff.symm
  funext identity
  rw [eq_iff_iff, servers_iff ordered, servers_iff ordered', same]

/-- Registration order does not matter just when of two introduced versions of one
function the lower was served before. -/
theorem registration_order {guard : Proxy → Env × Event → Prop}
    (reached : Reaches (fabric conf) guard p)
    (distinct : (intros.map fun intro => intro.1.identity).Nodup)
    (handled : HandledInAnyOrder conf intros p) :
    OrderIndependent conf intros p ↔ LowerKnown conf intros p := by
  have registry := registry_reaches reached
  have orderly := orderly_rule.reaches (reaches_registrySystem reached) orderly_new
  exact ⟨fun independent => independent.lowerKnown registry orderly distinct handled,
    fun known => known.independent registry orderly⟩

def introduction (identity : List UInt8) (pid ver : UInt64) : Message :=
  messageNew 0 1000000 true (strhex identity)
    (packed "introduce" (.map [(.raw "name", .raw "mod"), (.raw "pid", .positiveInteger pid),
      (.raw "provides", .map [(.raw "f", .positiveInteger ver)])]) "intro") "introduce" "intro"

theorem introduction_provides (identity : List UInt8) (pid ver : UInt64) :
    messageGetProvides (introduction identity pid ver) =
      .ok (some ((∅ : ZHash Unpacked).insert "f" (.u64 ver))) := rfl

theorem introduction_offers {identity : List UInt8} {pid ver other : UInt64} {key : String × String}
    (offered : Offered conf (introduction identity pid ver, answer) key other) :
    key = ("mod", "f") ∧ other = ver := by
  obtain ⟨number, provides, value, request, _, read, found, version⟩ := offered
  obtain ⟨named, _, _⟩ := introduceRequest_some request
  have name : messageGetName (introduction identity pid ver) = .ok (some "mod") := rfl
  rw [name, Except.ok.injEq, Option.some.injEq] at named
  rw [introduction_provides, Except.ok.injEq, Option.some.injEq] at read
  subst read
  rw [ZHash.lookup_insert] at found
  split at found
  · rename_i function
    cases found
    cases version
    exact ⟨Prod.ext named.symm function, rfl⟩
  · cases found

theorem introduction_nonzero (identity : List UInt8) (pid : UInt64) {ver : UInt64}
    (positive : ver ≠ 0) : NonzeroProvides (introduction identity pid ver) := by
  intro provides read function value found
  rw [introduction_provides, Except.ok.injEq, Option.some.injEq] at read
  subst read
  rw [ZHash.lookup_insert] at found
  split at found
  · cases found
    exact ⟨ver, rfl, positive⟩
  · cases found

theorem introducesAll_of_ends (ends : (intros.foldlM (fun p intro =>
    processIntroduce conf early intro.1 intro.2 p) p).toOption.isSome = true) :
    ∃ q, IntroducesAll conf intros p q := by
  induction intros generalizing p with
  | nil => exact ⟨p, .nil p⟩
  | cons intro rest ih =>
      rw [List.foldlM_cons] at ends
      cases first : processIntroduce conf early intro.1 intro.2 p with
      | error fault =>
          rw [first] at ends
          cases ends
      | ok middle =>
          rw [first] at ends
          obtain ⟨q, later⟩ := ih ends
          exact ⟨q, .cons first later⟩

def olderAndNewer : List (Message × String) :=
  [(introduction worker 77 1, "yes"), (introduction caller 78 3, "yes")]

theorem olderAndNewer_nonzero : ∀ intro ∈ olderAndNewer, NonzeroProvides intro.1 := by
  intro intro member
  simp only [olderAndNewer, List.mem_cons, List.not_mem_nil, or_false] at member
  rcases member with rfl | rfl
  · exact introduction_nonzero _ _ (by decide)
  · exact introduction_nonzero _ _ (by decide)

def newerServed : List (Env × Event) :=
  [(early, .localMsg (introduceOf [0, 9, 10, 11, 12] "mod" 79 [("f", 3)]) "yes")]

theorem registration_order_served :
    OrderIndependent plainConf olderAndNewer (fabricAfter plainConf newerServed) := by
  have reached : Reaches (fabric plainConf) anything (fabricAfter plainConf newerServed) :=
    fabricAfter_reaches (fun _ _ _ => trivial) (by decide +kernel)
  have handled : HandledInAnyOrder plainConf olderAndNewer (fabricAfter plainConf newerServed) := by
    intro order perm
    rcases List.perm_pair.mp perm with rfl | rfl
    · exact introducesAll_of_ends (by decide +kernel)
    · exact introducesAll_of_ends (by decide +kernel)
  refine (registration_order reached (by decide +kernel) handled).mpr ?_
  intro lower lowerIn higher higherIn key low high offeredLow offeredHigh below
  have either : low = 1 ∨ low = 3 := by
    simp only [olderAndNewer, List.mem_cons, List.not_mem_nil, or_false] at lowerIn
    rcases lowerIn with rfl | rfl
    · exact Or.inl (introduction_offers offeredLow).2
    · exact Or.inr (introduction_offers offeredLow).2
  have called : key = ("mod", "f") := by
    simp only [olderAndNewer, List.mem_cons, List.not_mem_nil, or_false] at lowerIn
    rcases lowerIn with rfl | rfl
    · exact (introduction_offers offeredLow).1
    · exact (introduction_offers offeredLow).1
  subst called
  rcases either with rfl | rfl
  · decide +kernel
  · decide +kernel

/-- From the start, the newer module serves the older version only if it comes first. -/
theorem registration_order_matters :
    ¬ ∀ conf p intros, Reaches (fabric conf) anything p →
      (intros.map fun intro : Message × String => intro.1.identity).Nodup →
      (∀ intro ∈ intros, NonzeroProvides intro.1) → HandledInAnyOrder conf intros p →
      OrderIndependent conf intros p := by
  intro always
  have reached : Reaches (fabric plainConf) anything proxyNew := ⟨proxyNew, rfl, .refl proxyNew⟩
  have handled : HandledInAnyOrder plainConf olderAndNewer proxyNew := by
    intro order perm
    rcases List.perm_pair.mp perm with rfl | rfl
    · exact introducesAll_of_ends (by decide +kernel)
    · exact introducesAll_of_ends (by decide +kernel)
  have independent := always plainConf proxyNew olderAndNewer reached (by decide +kernel)
    olderAndNewer_nonzero handled
  have known := independent.lowerKnown registry_new orderly_new (by decide +kernel) handled
  have request (identity : List UInt8) (ver : UInt64) (pid : UInt64)
      (asks : introduceRequest (introduction identity pid ver) = .ok (some ("mod", toInt pid))) :
      Offered plainConf (introduction identity pid ver, "yes") ("mod", "f") ver :=
    ⟨toInt pid, _, .u64 ver, asks, Or.inr (show "yes" ≠ "no" by decide),
      introduction_provides _ _ _, AList.lookup_insert _, rfl⟩
  exact known (introduction worker 77 1, "yes") List.mem_cons_self (introduction caller 78 3, "yes")
    (List.mem_cons_of_mem _ List.mem_cons_self) ("mod", "f") 1 3 (request _ _ _ rfl)
    (request _ _ _ rfl) (by decide) rfl

end

end ModBus
