import ModBus.Handlers

/-! The arithmetic of the timeouts. A difference of two clock readings that wraps
at 64 bits is compared with a product of `int`s that wraps at 32. -/

namespace ModBus

open Libc Czmq

def Elapsed (timeout : Int32) (stamp now : UInt64) : Prop :=
  1000 * timeout.toInt < (now.toNat : Int) - stamp.toNat

inductive Comparable (timeout : Int32) (stamp now : UInt64) : Prop
  | fits (forward : stamp ≤ now) (product : 1000 * timeout.toInt < 2 ^ 31) :
      Comparable timeout stamp now
  | early (forward : stamp ≤ now) (product : 2 ^ 31 ≤ 1000 * timeout.toInt)
      (below : (now.toNat - stamp.toNat : Int) ≤ min (1000 * timeout.toInt) (limit timeout).toNat) :
      Comparable timeout stamp now
  | late (forward : stamp ≤ now) (product : 2 ^ 31 ≤ 1000 * timeout.toInt)
      (above : max (1000 * timeout.toInt) (limit timeout).toNat < (now.toNat - stamp.toNat : Int)) :
      Comparable timeout stamp now
  | back (backward : now < stamp)
      (far : 2 ^ 64 - (limit timeout).toNat ≤ stamp.toNat - now.toNat) :
      Comparable timeout stamp now

theorem limit_fits {timeout : Int32} (nonneg : 0 ≤ timeout.toInt)
    (fits : 1000 * timeout.toInt < 2 ^ 31) : ((limit timeout).toNat : Int) = 1000 * timeout.toInt := by
  have thousand : (1000 : Int32).toInt = 1000 := rfl
  have product : (timeout * 1000).toInt = 1000 * timeout.toInt := by
    rw [Int32.toInt_mul, thousand, Int.bmod_eq_of_le (by omega) (by omega)]
    omega
  have wide : (timeout * 1000).toInt64.toInt = 1000 * timeout.toInt := by
    rw [Int32.toInt_toInt64, product]
  have positive : 0 ≤ (timeout * 1000).toInt64 := by
    rw [Int64.le_iff_toInt_le, wide]
    have zero : (0 : Int64).toInt = 0 := rfl
    omega
  rw [limit, Int64.toNat_toUInt64_of_le positive, Int64.toNatClampNeg]
  omega

theorem delta_toNat (stamp now : UInt64) : (now - stamp).toNat =
    if stamp ≤ now then now.toNat - stamp.toNat else 2 ^ 64 - (stamp.toNat - now.toNat) := by
  have stampSize := stamp.toNat_lt
  have nowSize := now.toNat_lt
  rw [UInt64.toNat_sub]
  split
  · rename_i order
    rw [UInt64.le_iff_toNat_le] at order
    omega
  · rename_i back
    rw [UInt64.le_iff_toNat_le] at back
    omega

theorem compared_iff (timeout : Int32) (stamp now : UInt64) (nonneg : 0 ≤ timeout.toInt) :
    (limit timeout < now - stamp ↔ Elapsed timeout stamp now) ↔ Comparable timeout stamp now := by
  have delta := delta_toNat stamp now
  have size := (limit timeout).toNat_lt
  have stampSize := stamp.toNat_lt
  rw [UInt64.lt_iff_toNat_lt]
  unfold Elapsed
  by_cases forward : stamp ≤ now
  · rw [if_pos forward] at delta
    have order := UInt64.le_iff_toNat_le.mp forward
    by_cases product : 1000 * timeout.toInt < 2 ^ 31
    · have same := limit_fits nonneg product
      refine ⟨fun _ => .fits forward product, fun _ => ?_⟩
      omega
    · constructor
      · intro agree
        by_cases passed : 1000 * timeout.toInt < (now.toNat : Int) - stamp.toNat
        · have beyond := agree.mpr passed
          exact .late forward (by omega) (by omega)
        · have within : ¬ (limit timeout).toNat < (now - stamp).toNat := fun beyond =>
            passed (agree.mp beyond)
          exact .early forward (by omega) (by omega)
      · intro comparable
        cases comparable with
        | fits _ small => omega
        | early _ _ below => omega
        | late _ _ above => omega
        | back backward => exact absurd forward (UInt64.not_le.mpr backward)
  · rw [if_neg forward] at delta
    have back : now < stamp := UInt64.not_le.mp forward
    have order := UInt64.lt_iff_toNat_lt.mp back
    constructor
    · intro agree
      have within : ¬ (limit timeout).toNat < (now - stamp).toNat := fun beyond => by
        have passed := agree.mp beyond
        omega
      exact .back back (by omega)
    · intro comparable
      cases comparable with
      | fits ahead => exact absurd ahead forward
      | early ahead => exact absurd ahead forward
      | late ahead => exact absurd ahead forward
      | back _ far => omega

/-- Each comparison of a sweep is right over the integers exactly when its
product and its difference wrap to nothing that matters. -/
theorem timeouts_compared (conf : Config) (message : Message) (now : UInt64)
    (inTimeout : 0 ≤ conf.inTimeout.toInt) (outTimeout : 0 ≤ conf.outTimeout.toInt)
    (processTimeout : 0 ≤ conf.processTimeout.toInt) :
    ((limit conf.inTimeout < getInTimeDelta now message ↔
        Elapsed conf.inTimeout message.inTimestamp now) ↔
      Comparable conf.inTimeout message.inTimestamp now) ∧
    ((limit conf.outTimeout < getOutTimeDelta now message ↔
        Elapsed conf.outTimeout message.outTimestamp now) ↔
      Comparable conf.outTimeout message.outTimestamp now) ∧
    ((limit conf.processTimeout < getProcessTimeDelta now message ↔
        Elapsed conf.processTimeout message.processTimestamp now) ↔
      Comparable conf.processTimeout message.processTimestamp now) :=
  ⟨compared_iff _ _ _ inTimeout, compared_iff _ _ _ outTimeout, compared_iff _ _ _ processTimeout⟩

def fromLater : Message := messageNew 0 5000000 true "0001020304" (.map []) "call" "call-1"

def oneSecond : Config where
  debug := false
  inTimeout := 1000
  outTimeout := 1000
  processTimeout := 10000
  modules := ∅

theorem timeouts_compared_fromLater :
    (limit oneSecond.inTimeout < getInTimeDelta 6000001 fromLater ↔
        Elapsed oneSecond.inTimeout fromLater.inTimestamp 6000001) := by
  have fits : Comparable oneSecond.inTimeout fromLater.inTimestamp 6000001 :=
    .fits (by decide) (by decide)
  exact (timeouts_compared oneSecond fromLater 6000001 (by decide) (by decide)
    (by decide)).1.mpr fits

/-- One microsecond before the stamp, every timeout of up to 35 minutes has run
out. -/
theorem timeouts_misjudged :
    ¬ ∀ (conf : Config) (message : Message) (now : UInt64), 0 ≤ conf.inTimeout.toInt →
      0 ≤ conf.outTimeout.toInt → 0 ≤ conf.processTimeout.toInt →
      (limit conf.inTimeout < getInTimeDelta now message ↔
        Elapsed conf.inTimeout message.inTimestamp now) ∧
      (limit conf.outTimeout < getOutTimeDelta now message ↔
        Elapsed conf.outTimeout message.outTimestamp now) ∧
      (limit conf.processTimeout < getProcessTimeDelta now message ↔
        Elapsed conf.processTimeout message.processTimestamp now) := by
  intro always
  have agrees := (always oneSecond fromLater 4999999 (by decide) (by decide) (by decide)).1
  have out : limit oneSecond.inTimeout < getInTimeDelta 4999999 fromLater := by decide
  have elapsed := agrees.mp out
  revert elapsed
  unfold Elapsed
  decide

end ModBus
