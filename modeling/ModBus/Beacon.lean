import ModBus.ConfigFile
import ModBus.Heartbeat
import ModBus.Network

/-! How fabrics find each other: the endpoint that each binds, the beacon that it
sends of it, and what the others make of the beacon. -/

namespace ModBus

open Libc Czmq Transition

def zsocketDynfrom : Nat := 0xc000

def zsocketDynto : Nat := 0xffff

def bindPoint (selfIp : String) (port : Nat) : String :=
  "tcp://" ++ selfIp ++ ":" ++ decimal port

def bindGlobal (zsocketBind : String → Bool) (selfIp : String) (port : Nat) :
    Except Fault (Option String) :=
  if port ≤ zsocketDynto then
    match sprintfTo 64 (bindPoint selfIp port) with
    | .error fault => .error fault
    | .ok endpoint =>
        if zsocketBind endpoint then .ok (some endpoint)
        else bindGlobal zsocketBind selfIp (port + 1)
  else .ok none
termination_by zsocketDynto + 1 - port

def modbusDomain : String := "ModBus"

/-- The beacon is the whole buffer, whatever is left in it after the name. -/
def beaconThread (endpoint : String) (unset : List Char) : Except Fault String := do
  let name ← sprintfTo 128 (modbusDomain ++ "@" ++ endpoint)
  return String.ofList ((name.toList ++ '\x00' :: unset).take 128)

def sBeaconOuterEvent (ipaddress msg : String) : String × String :=
  (cString ipaddress, cString msg)

def Booted {Index : Type} (zsocketBind : Index → String → Bool) (selfIp endpoint : Index → String) :
    Prop :=
  ∀ part, bindGlobal (zsocketBind part) (selfIp part) zsocketDynfrom = .ok (some (endpoint part))

def Announces (endpoint msg : String) : Prop :=
  ∃ unset beacon ipaddress, beaconThread endpoint unset = .ok beacon ∧
    msg = (sBeaconOuterEvent ipaddress beacon).2

def Announced {Index : Type} (endpoint : Index → String) (_ : Index → Proxy)
    (label : Index × Env × Event) : Prop :=
  ∀ msg, label.2.2 = .beacon msg → ∃ source, Announces (endpoint source) msg

def PlainAddress (selfIp : String) : Prop :=
  '@' ∉ selfIp.toList ∧ ':' ∉ selfIp.toList ∧ '\x00' ∉ selfIp.toList

def FirstPort (zsocketBind : String → Bool) (selfIp endpoint : String) : Prop :=
  ∃ port, zsocketDynfrom ≤ port ∧ port ≤ zsocketDynto ∧ endpoint = bindPoint selfIp port ∧
    zsocketBind endpoint = true ∧
    ∀ earlier, zsocketDynfrom ≤ earlier → earlier < port →
      zsocketBind (bindPoint selfIp earlier) = false

structure Acquainted {Index : Type} (endpoint : Index → String) (p : Proxy) : Prop where
  listed : ∀ identity ∈ p.fabList, ∃ source, identity = endpoint source
  routes : ∀ identity ∈ p.fabList, p.route identity = some (.peer identity)
  hears : ∀ conf env source msg q, Announces (endpoint source) msg →
    env.zsocketConnect (endpoint source) = true → p.step conf env (.beacon msg) = .ok q →
    ∀ identity, identity ∈ q.fabList ↔ identity = endpoint source ∨ identity ∈ p.fabList

section

variable {zsocketBind : String → Bool} {selfIp endpoint identity msg : String} {port : Nat}
  {conf : Config} {env : Env} {event : Event} {p q : Proxy}

theorem bindGlobal_ok
    (bound : bindGlobal zsocketBind selfIp port = .ok (some endpoint)) :
    ∃ chosen, port ≤ chosen ∧ chosen ≤ zsocketDynto ∧ endpoint = bindPoint selfIp chosen ∧
      endpoint.length < 64 ∧ zsocketBind endpoint = true ∧
      ∀ earlier, port ≤ earlier → earlier < chosen →
        zsocketBind (bindPoint selfIp earlier) = false := by
  induction port using bindGlobal.induct zsocketBind selfIp with
  | case1 port inside fault fails =>
      rw [bindGlobal, if_pos inside, fails] at bound
      cases bound
  | case2 port inside found fits binds =>
      rw [bindGlobal, if_pos inside, fits] at bound
      dsimp only at bound
      rw [if_pos binds] at bound
      cases bound
      obtain ⟨short, same⟩ := sprintfTo_ok.mp fits
      refine ⟨port, le_rfl, inside, same, same ▸ short, binds, fun earlier from' before => ?_⟩
      omega
  | case3 port inside other fits refused ih =>
      rw [bindGlobal, if_pos inside, fits] at bound
      dsimp only at bound
      rw [if_neg refused] at bound
      obtain ⟨chosen, after, limit, same, short, binds, first⟩ := ih bound
      refine ⟨chosen, Nat.le_of_succ_le after, limit, same, short, binds, ?_⟩
      intro earlier from' before
      rcases Nat.eq_or_lt_of_le from' with here | later
      · subst here
        rw [← (sprintfTo_ok.mp fits).2]
        simpa using refused
      · exact first earlier later before
  | case4 port outside =>
      rw [bindGlobal, if_neg outside] at bound
      cases bound

theorem bindPoint_toList : (bindPoint selfIp port).toList =
    "tcp://".toList ++ selfIp.toList ++ ':' :: (decimal port).toList := by
  rw [bindPoint, String.toList_append, String.toList_append, String.toList_append,
    List.append_assoc]
  rfl

theorem takeWhile_stops {stop : Char} {before rest : List Char} (free : stop ∉ before) :
    (before ++ stop :: rest).takeWhile (· ≠ stop) = before := by
  rw [List.takeWhile_append_of_pos]
  · simp
  · intro c member
    simpa using ne_of_mem_of_not_mem member free

theorem bindPoint_free {c : Char} (address : c ∉ selfIp.toList) (scheme : c ∉ "tcp://".toList)
    (separator : c ≠ ':') (digits : c ∉ (decimal port).toList) :
    c ∉ (bindPoint selfIp port).toList := by
  rw [bindPoint_toList, List.mem_append, List.mem_append, List.mem_cons]
  tauto

theorem bindPoint_selfIp {other : String} {another : Nat} (mine : ':' ∉ selfIp.toList)
    (yours : ':' ∉ other.toList) (same : bindPoint selfIp port = bindPoint other another) :
    selfIp = other := by
  have lists := congrArg String.toList same
  rw [bindPoint_toList, bindPoint_toList, List.append_assoc, List.append_assoc,
    List.append_cancel_left_eq] at lists
  have address := congrArg (List.takeWhile (· ≠ ':')) lists
  rw [takeWhile_stops mine, takeWhile_stops yours] at address
  exact String.toList_inj.mp address

theorem at_notMem_decimal (n : Int) : '@' ∉ (decimal n).toList := by
  intro member
  rcases decimal_chars n '@' member with minus | digit <;> simp at *

theorem bindPoint_long (dynamic : zsocketDynfrom ≤ port) : 10 < (bindPoint selfIp port).length := by
  have digits : 4 < (decimal port).toList.length := by
    have text : (decimal port).toList = Nat.toDigits 10 port := by
      rw [decimal, String.toList_ofList, if_neg (by omega), Int.natAbs_natCast]
    rw [text, ← not_le, Nat.length_toDigits_le_iff (by decide) (by decide), not_lt]
    exact le_trans (by decide) dynamic
  have scheme : "tcp://".toList.length = 6 := rfl
  rw [← String.length_toList, bindPoint_toList, List.length_append, List.length_append,
    List.length_cons, scheme]
  omega

theorem beaconThread_cString {unset : List Char} {beacon : String}
    (fits : beaconThread endpoint unset = .ok beacon) (plain : '\x00' ∉ endpoint.toList) :
    cString beacon = modbusDomain ++ "@" ++ endpoint := by
  obtain ⟨name, written, whole⟩ := bind_ok.mp fits
  obtain ⟨short, rfl⟩ := sprintfTo_ok.mp written
  cases whole
  have free : '\x00' ∉ (modbusDomain ++ "@" ++ endpoint).toList := by
    rw [String.toList_append, List.mem_append, not_or]
    exact ⟨by decide, plain⟩
  have inside : (modbusDomain ++ "@" ++ endpoint).toList.length < 128 := by
    rwa [String.length_toList]
  rw [cString, String.toList_ofList, List.take_append,
    List.take_of_length_le inside.le]
  obtain ⟨left, room⟩ : ∃ left, 128 - (modbusDomain ++ "@" ++ endpoint).toList.length = left + 1 :=
    ⟨_, (Nat.succ_pred_eq_of_pos (by omega)).symm⟩
  rw [room, List.take_succ_cons, takeWhile_stops free, String.ofList_toList]

theorem fabNew_beacon (free : '@' ∉ endpoint.toList) (nonempty : endpoint ≠ "") :
    fabNew (modbusDomain ++ "@" ++ endpoint) = some endpoint := by
  have whole : (modbusDomain ++ "@" ++ endpoint).toList =
      modbusDomain.toList ++ '@' :: endpoint.toList := by
    rw [String.toList_append, String.toList_append, List.append_assoc]
    rfl
  have last : strtokFrom '@' [] endpoint.toList = [endpoint] := by
    have some' : ([].reverse ++ endpoint.toList).isEmpty = false := by
      rw [List.isEmpty_eq_false_iff]
      exact fun empty => nonempty (String.toList_inj.mp empty)
    rw [strtokFrom_last free, some', if_neg Bool.false_ne_true, List.reverse_nil, List.nil_append,
      String.ofList_toList]
  rw [fabNew, strtok, whole, strtokFrom_word (by decide), last]
  rfl

theorem step_fabList (registry : Registry p) (run : p.step conf env event = .ok q)
    (member : identity ∈ q.fabList) :
    identity ∈ p.fabList ∨ ∃ msg, event = .beacon msg ∧ fabNew msg = some identity := by
  cases step_handled run with
  | unreadable _ same => exact .inl (same ▸ member)
  | @command message _ commanded =>
      rw [commanded.fabList (registry.arrived message)] at member
      exact .inl ((mem_arrived_fabList message identity).mp member)
  | procman _ notified =>
      rcases sProcmanEvent_ok notified with result | ⟨key, mod, _, _, result⟩
      · exact .inl (result ▸ member)
      · rw [noticed_same result] at member
        exact .inl member
  | queueItem _ result =>
      rw [(processQueueItem_sweeps result).fabList] at member
      exact .inl member
  | @fabItem key _ result =>
      rcases getIfaceListEventItem_ok result with kept | ⟨fab, _, ⟨_, kept⟩ | ⟨_, kept⟩⟩
      · exact .inl (kept ▸ member)
      · rw [kept] at member
        exact .inl ((ZHash.mem_update _ _ _ _).mp member)
      · rw [kept] at member
        exact .inl (AList.mem_erase.mp member).2
  | @beacon msg same announced =>
      unfold sBeaconEvent at announced
      split at announced
      · cases announced
        exact .inl member
      · rename_i new parsed
        split at announced
        · cases announced
          exact .inl member
        · split at announced
          · cases announced
            rcases (AList.mem_insert _).mp member with here | old
            · exact .inr ⟨msg, same, here ▸ parsed⟩
            · exact .inl old
          · cases announced

theorem announces_fabNew (announces : Announces endpoint msg) (free : '@' ∉ endpoint.toList)
    (plain : '\x00' ∉ endpoint.toList) (nonempty : endpoint ≠ "") : fabNew msg = some endpoint := by
  obtain ⟨unset, beacon, ipaddress, fits, rfl⟩ := announces
  rw [sBeaconOuterEvent, beaconThread_cString fits plain]
  exact fabNew_beacon free nonempty

theorem beacon_listed (connects : env.zsocketConnect endpoint = true)
    (parsed : fabNew msg = some endpoint) (run : p.step conf env (.beacon msg) = .ok q) :
    identity ∈ q.fabList ↔ identity = endpoint ∨ identity ∈ p.fabList := by
  have announced : sBeaconEvent env msg p = .ok q := run
  simp only [sBeaconEvent, parsed, connects, ↓reduceIte] at announced
  split at announced
  · rename_i known
    cases announced
    constructor
    · exact .inr
    · rintro (rfl | old)
      · exact known
      · exact old
  · cases announced
    exact AList.mem_insert _

end

section

variable {Index : Type} {zsocketBind : Index → String → Bool} {selfIp endpoint : Index → String}

structure Endpoint (endpoint : String) : Prop where
  free : '@' ∉ endpoint.toList
  plain : '\x00' ∉ endpoint.toList
  long : 10 < endpoint.length
  fits : ∀ unset, ∃ beacon, beaconThread endpoint unset = .ok beacon

theorem Endpoint.fabNew {endpoint msg : String} (bound : Endpoint endpoint)
    (announces : Announces endpoint msg) : fabNew msg = some endpoint := by
  refine announces_fabNew announces bound.free bound.plain ?_
  rintro rfl
  exact absurd bound.long (by decide)

theorem booted_endpoint (booted : Booted zsocketBind selfIp endpoint)
    (address : ∀ part, PlainAddress (selfIp part)) (part : Index) : Endpoint (endpoint part) := by
  obtain ⟨port, dynamic, _, same, short, _⟩ := bindGlobal_ok (booted part)
  obtain ⟨free, _, plain⟩ := address part
  constructor
  case free => exact same ▸ bindPoint_free free (by decide) (by decide) (at_notMem_decimal port)
  case plain => exact same ▸ bindPoint_free plain (by decide) (by decide) (nul_notMem_decimal port)
  case long => exact same ▸ bindPoint_long dynamic
  case fits =>
    intro unset
    have room : (modbusDomain ++ "@" ++ endpoint part).length < 128 := by
      rw [String.length_append]
      have domain : (modbusDomain ++ "@").length = 7 := rfl
      omega
    exact ⟨_, bind_ok.mpr ⟨_, sprintfTo_ok.mpr ⟨room, rfl⟩, rfl⟩⟩

theorem booted_selfIp (booted : Booted zsocketBind selfIp endpoint)
    (address : ∀ part, PlainAddress (selfIp part)) {part other : Index}
    (same : endpoint part = endpoint other) : selfIp part = selfIp other := by
  obtain ⟨port, _, _, mine, _⟩ := bindGlobal_ok (booted part)
  obtain ⟨another, _, _, yours, _⟩ := bindGlobal_ok (booted other)
  exact bindPoint_selfIp (address part).2.1 (address other).2.1 (mine ▸ yours ▸ same)

/-- In every run of fabrics whose beacons are lost, repeated and reordered, each
knows the others by the endpoints that they have bound, and by nothing else: every
beacon that it hears leads it to the fabric that sent it. -/
theorem beacons_acquaint [DecidableEq Index] {conf : Index → Config} {net : Index → Proxy}
    (booted : Booted zsocketBind selfIp endpoint) (address : ∀ part, PlainAddress (selfIp part))
    (reached : Reaches (fabrics conf endpoint) (Announced endpoint) net) (part : Index) :
    Acquainted endpoint (net part) ∧ FirstPort (zsocketBind part) (selfIp part) (endpoint part) ∧
      (∀ unset, ∃ beacon, beaconThread (endpoint part) unset = .ok beacon) ∧
      ∀ other, endpoint part = endpoint other → selfIp part = selfIp other := by
  obtain ⟨port, dynamic, limit, chosen, _, binds, first⟩ := bindGlobal_ok (booted part)
  have bound := booted_endpoint booted address
  have listed : ∀ part, ∀ identity ∈ (net part).fabList, ∃ source, identity = endpoint source := by
    refine reached.invariant_reached
      (fun net => ∀ part, ∀ identity ∈ (net part).fabList,
        ∃ source, identity = endpoint source) ?_ ?_
    · intro start begins part identity member
      have empty : start part = proxyNew := begins part
      rw [empty] at member
      cases member
    · rintro net ⟨mover, env, event⟩ next before announced ⟨_, after, moved, rfl⟩ holds part
        identity member
      by_cases moves : part = mover
      · subst moves
        rw [Function.update_self] at member
        have registry := registry_reaches (before.network_part part)
        rcases step_fabList registry moved member with old | ⟨msg, same, parsed⟩
        · exact holds part identity old
        · obtain ⟨source, announces⟩ := announced msg same
          rw [(bound source).fabNew announces, Option.some.injEq] at parsed
          exact ⟨source, parsed.symm⟩
      · rw [Function.update_of_ne moves] at member
        exact holds part identity member
  refine ⟨⟨listed part, ?_, ?_⟩, ⟨port, dynamic, limit, chosen, binds, first⟩, (bound part).fits,
    fun other => booted_selfIp booted address⟩
  · intro identity member
    obtain ⟨source, rfl⟩ := listed part identity member
    obtain ⟨fab, found⟩ := ZHash.lookup_of_mem member
    rw [Proxy.route, if_pos (bound source).long, found, Option.map_some]
  · intro conf env source msg q announces connects run identity
    exact beacon_listed connects ((bound source).fabNew announces) run

end

def twoIps (part : Bool) : String := if part then "10.0.0.2" else "10.0.0.1"

def twoEndpoints (part : Bool) : String := if part then peerName else "tcp://10.0.0.1:49152"

theorem two_booted : Booted (fun _ _ => true) twoIps twoEndpoints := by
  intro part
  rw [bindGlobal, if_pos (by decide)]
  cases part <;> rfl

/-- One of two fabrics hears the other's beacon. -/
theorem beacons_acquaint_peer : ∃ q,
    proxyNew.step plainConf early (.beacon ("ModBus@" ++ peerName)) = .ok q ∧
    ∀ identity, identity ∈ q.fabList ↔ identity = peerName ∨ identity ∈ proxyNew.fabList := by
  have start : Reaches (fabrics (fun _ : Bool => plainConf) twoEndpoints) (Announced twoEndpoints)
      (fun _ => proxyNew) := .initial fun _ => rfl
  have address : ∀ part, PlainAddress (twoIps part) := by
    intro part
    cases part <;> exact ⟨by decide, by decide, by decide⟩
  have announces : Announces (twoEndpoints true) ("ModBus@" ++ peerName) :=
    ⟨[], "ModBus@" ++ peerName ++ "\x00", "10.0.0.2", rfl, by decide⟩
  obtain ⟨acquainted, _⟩ := beacons_acquaint two_booted address start false
  exact ⟨_, rfl, acquainted.hears plainConf early true _ _ announces rfl rfl⟩

end ModBus
