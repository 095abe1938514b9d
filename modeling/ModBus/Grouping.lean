import Mathlib.Data.List.Induction
import ModBus.Catalog

/-! Providers grouped by version: an offer joins the group of the least known
version that is no older, or opens a group of its own. Whether the order of the
offers matters is decided by what was known before. -/

namespace Offers

structure Groups (Provider Key Version : Type) where
  known : Key × Version → Prop
  member : Key × Version → Provider → Prop

def Groups.catalog {Provider Key Version : Type} (groups : Groups Provider Key Version)
    (provider : Provider) : Catalog Key Version where
  known := groups.known
  believed entry := groups.member entry provider

variable {Provider Key Version : Type} [LinearOrder Version]

def Groups.Serves (groups : Groups Provider Key Version) (entry : Key × Version)
    (provider : Provider) : Prop :=
  Settled (groups.catalog provider) entry

def Joins (offer : Provider × Key × Version) (before after : Groups Provider Key Version) : Prop :=
  ∃ version, TakenFor (before.catalog offer.1) offer.2 version ∧
    (∀ entry, after.known entry ↔ before.known entry ∨ entry = (offer.2.1, version)) ∧
    ∀ entry other, after.member entry other ↔
      before.member entry other ∨ entry = (offer.2.1, version) ∧ other = offer.1

inductive JoinsAll : List (Provider × Key × Version) → Groups Provider Key Version →
    Groups Provider Key Version → Prop
  | nil (groups) : JoinsAll [] groups groups
  | snoc {offers offer before middle after} : JoinsAll offers before middle →
      Joins offer middle after → JoinsAll (offers ++ [offer]) before after

def Compatible (groups : Groups Provider Key Version) (offers : List (Provider × Key × Version)) :
    Prop :=
  ∀ lower ∈ offers, ∀ higher ∈ offers, lower.2.1 = higher.2.1 → lower.2.2 < higher.2.2 →
    ∃ version, groups.known (lower.2.1, version) ∧ lower.2.2 ≤ version

section

variable {before middle after other : Groups Provider Key Version}
  {offer : Provider × Key × Version} {offers more : List (Provider × Key × Version)}
  {entry : Key × Version} {provider : Provider} {key : Key} {version : Version}

theorem TakenFor.congr {left right : Catalog Key Version} {offer : Key × Version}
    (known : right.known = left.known) (taken : TakenFor left offer version) :
    TakenFor right offer version := by
  cases taken with
  | known held above least => exact .known (known ▸ held) above (known ▸ least)
  | new older => exact .new (known ▸ older)

theorem JoinsAll.append (first : JoinsAll offers before middle) (second : JoinsAll more middle after) :
    JoinsAll (offers ++ more) before after := by
  induction second with
  | nil => simpa using first
  | snoc _ last ih =>
      rw [← List.append_assoc]
      exact (ih first).snoc last

theorem TakenFor.unique {catalog : Catalog Key Version} {offer : Key × Version} {left right : Version}
    (first : TakenFor catalog offer left) (second : TakenFor catalog offer right) : left = right := by
  cases first with
  | known held above least =>
      cases second with
      | known held' above' least' => exact le_antisymm (least _ held' above') (least' _ held above)
      | new older => exact absurd above (not_le.mpr (older _ held))
  | new older =>
      cases second with
      | known held above => exact absurd above (not_le.mpr (older _ held))
      | new => rfl

/-- An offer that joins after others joins the group that it would have joined
before them. -/
theorem TakenFor.of_grown {all : List (Provider × Key × Version)} (compatible : Compatible before all)
    (included : offers ⊆ all) (member : offer ∈ all)
    (grown : ∀ entry, middle.known entry ↔ before.known entry ∨ ∃ earlier ∈ offers,
      earlier.2.1 = entry.1 ∧ TakenFor (before.catalog earlier.1) earlier.2 entry.2)
    (taken : TakenFor (middle.catalog offer.1) offer.2 version) :
    TakenFor (before.catalog offer.1) offer.2 version := by
  have joined : ∀ earlier ∈ offers, earlier.2.1 = offer.2.1 →
      TakenFor (before.catalog earlier.1) earlier.2 version → ¬ before.known (offer.2.1, version) →
      version = earlier.2.2 ∧ ∀ old, before.known (offer.2.1, old) → old < version := by
    intro earlier _ sameKey joining unknown
    cases joining with
    | known held => exact absurd (sameKey ▸ held) unknown
    | new older => exact ⟨rfl, fun old held => older old (sameKey ▸ held)⟩
  cases taken with
  | known held above least =>
      by_cases old : before.known (offer.2.1, version)
      · exact .known old above fun third known enough =>
          least third ((grown _).mpr (Or.inl known)) enough
      · obtain ⟨earlier, among, sameKey, joining⟩ := ((grown _).mp held).resolve_left old
        obtain ⟨rfl, newest⟩ := joined earlier among sameKey joining old
        rcases lt_or_eq_of_le above with lower | same
        · obtain ⟨third, known, enough⟩ :=
            compatible offer member earlier (included among) sameKey.symm lower
          exact absurd (least third ((grown _).mpr (Or.inl known)) enough)
            (not_le.mpr (newest third known))
        · rw [← same] at newest ⊢
          exact .new newest
  | new older => exact .new fun third known => older third ((grown _).mpr (Or.inl known))

/-- Compatible offers all join the groups that they would have joined at the start. -/
theorem JoinsAll.grown {all : List (Provider × Key × Version)} (compatible : Compatible before all)
    (included : offers ⊆ all) (joins : JoinsAll offers before after) :
    (∀ entry, after.known entry ↔ before.known entry ∨ ∃ offer ∈ offers,
      offer.2.1 = entry.1 ∧ TakenFor (before.catalog offer.1) offer.2 entry.2) ∧
    ∀ entry provider, after.member entry provider ↔ before.member entry provider ∨
      ∃ offer ∈ offers, offer.1 = provider ∧ offer.2.1 = entry.1 ∧
        TakenFor (before.catalog offer.1) offer.2 entry.2 := by
  induction joins with
  | nil => simp
  | @snoc offers offer before middle after _ last ih =>
      obtain ⟨known, member⟩ := ih compatible fun earlier among => included (by simp [among])
      obtain ⟨version, taken, becomes, enters⟩ := last
      have now := taken.of_grown compatible (fun earlier among => included (by simp [among]))
        (included (by simp)) known
      have only : ∀ other, TakenFor (before.catalog offer.1) offer.2 other → other = version :=
        fun other joining => joining.unique now
      constructor
      · intro entry
        rw [becomes, known, or_assoc]
        refine or_congr_right ?_
        simp only [List.mem_append, List.mem_singleton, or_and_right, exists_or, exists_eq_left]
        refine or_congr_right ⟨?_, ?_⟩
        · rintro rfl
          exact ⟨rfl, now⟩
        · rintro ⟨sameKey, joining⟩
          rw [Prod.ext_iff]
          exact ⟨sameKey.symm, only _ joining⟩
      · intro entry provider
        rw [enters, member, or_assoc]
        refine or_congr_right ?_
        simp only [List.mem_append, List.mem_singleton, or_and_right, exists_or, exists_eq_left]
        refine or_congr_right ⟨?_, ?_⟩
        · rintro ⟨rfl, rfl⟩
          exact ⟨rfl, rfl, now⟩
        · rintro ⟨same, sameKey, joining⟩
          rw [Prod.ext_iff]
          exact ⟨⟨sameKey.symm, only _ joining⟩, same.symm⟩

theorem JoinsAll.order_independent (compatible : Compatible before offers)
    (same : ∀ offer, offer ∈ more ↔ offer ∈ offers) (first : JoinsAll offers before after)
    (second : JoinsAll more before other) : other = after := by
  obtain ⟨known, member⟩ := first.grown compatible (List.Subset.refl _)
  obtain ⟨known', member'⟩ := second.grown compatible fun offer among => (same offer).mp among
  have sameKnown : other.known = after.known := by
    funext entry
    rw [eq_iff_iff, known, known']
    simp only [same]
  have sameMember : other.member = after.member := by
    funext entry provider
    rw [eq_iff_iff, member, member']
    simp only [same]
  cases after
  cases other
  simp only at sameKnown sameMember
  rw [sameKnown, sameMember]

theorem JoinsAll.split (joins : JoinsAll (offers ++ more) before after) :
    ∃ middle, JoinsAll offers before middle ∧ JoinsAll more middle after := by
  induction more using List.reverseRecOn generalizing after with
  | nil => exact ⟨after, by simpa using joins, .nil after⟩
  | append_singleton more last ih =>
      rw [← List.append_assoc] at joins
      generalize parts : offers ++ more ++ [last] = all at joins
      cases joins with
      | nil => simp at parts
      | @snoc others offer _ middle _ earlier step =>
          obtain ⟨same, single⟩ := List.append_inj' parts rfl
          cases single
          subst same
          obtain ⟨between, first, second⟩ := ih earlier
          exact ⟨between, first, second.snoc step⟩

theorem joinsAll_singleton : JoinsAll [offer] before after ↔ Joins offer before after := by
  constructor
  · intro joins
    generalize single : [offer] = all at joins
    cases joins with
    | nil => cases single
    | @snoc others last _ _ _ earlier step =>
        have both : [] = others ∧ offer = last := List.append_singleton_inj.mp single
        obtain ⟨rfl, rfl⟩ := both
        generalize none : [] = nobody at earlier
        cases earlier with
        | nil => exact step
        | snoc => simp at none
  · exact fun joins => (JoinsAll.nil before).snoc joins

theorem JoinsAll.aside (joins : JoinsAll offers before after)
    (others : ∀ offer ∈ offers, offer.2.1 ≠ key) :
    (∀ version, after.known (key, version) ↔ before.known (key, version)) ∧
      ∀ version provider, after.member (key, version) provider ↔
        before.member (key, version) provider := by
  induction joins with
  | nil => simp
  | @snoc offers offer _ middle after _ last ih =>
      obtain ⟨known, member⟩ := ih fun earlier among => others earlier (by simp [among])
      have different : key ≠ offer.2.1 := (others offer (by simp)).symm
      obtain ⟨version, _, becomes, enters⟩ := last
      constructor
      · intro version
        simp [becomes, known, different]
      · intro version provider
        simp [enters, member, different]

theorem Groups.Serves.joins (serves : before.Serves entry provider)
    (joins : Joins offer before after) : after.Serves entry provider := by
  obtain ⟨version, known, above, least, member⟩ := serves
  obtain ⟨taken, takenFor, becomes, enters⟩ := joins
  refine ⟨version, (becomes _).mpr (Or.inl known), above, ?_, (enters _ _).mpr (Or.inl member)⟩
  intro third listed enough
  rcases (becomes _).mp listed with old | new
  · exact least third old enough
  · obtain ⟨sameKey, rfl⟩ := Prod.mk.injEq .. ▸ new
    cases takenFor with
    | known held => exact least third (sameKey ▸ held) enough
    | new older => exact le_of_lt (older version (sameKey ▸ known))

theorem JoinsAll.serves (joins : JoinsAll offers before after) (serves : before.Serves entry provider) :
    after.Serves entry provider := by
  induction joins with
  | nil => exact serves
  | snoc _ last ih => exact (ih serves).joins last

theorem Groups.not_serves (known : before.known entry) (out : ¬ before.member entry provider) :
    ¬ before.Serves entry provider := by
  rintro ⟨version, _, above, least, member⟩
  have same : version = entry.2 := le_antisymm (least entry.2 known (le_refl _)) above
  subst same
  exact out member

theorem JoinsAll.keepsOut (joins : JoinsAll offers before after) (known : before.known entry)
    (out : ¬ before.member entry provider)
    (newer : ∀ offer ∈ offers, offer.1 = provider → offer.2.1 = entry.1 → entry.2 < offer.2.2) :
    after.known entry ∧ ¬ after.member entry provider := by
  induction joins with
  | nil => exact ⟨known, out⟩
  | @snoc offers offer _ middle after _ last ih =>
      obtain ⟨still, outside⟩ := ih known out fun earlier among => newer earlier (by simp [among])
      obtain ⟨version, taken, becomes, enters⟩ := last
      refine ⟨(becomes entry).mpr (Or.inl still), fun inside => ?_⟩
      rcases (enters entry provider).mp inside with already | ⟨rfl, rfl⟩
      · exact outside already
      · exact absurd taken.above (not_le.mpr (newer offer (by simp) rfl rfl))

/-- A version that is newer than all known ones opens a group, and a provider that
offers a newer one later does not get into it. -/
theorem JoinsAll.lower_first {lower : Provider × Key × Version}
    (joins : JoinsAll (offers ++ lower :: more) before after)
    (sound : ∀ entry other, before.member entry other → before.known entry)
    (older : ∀ version, before.known (lower.2.1, version) → version < lower.2.2)
    (others : ∀ offer ∈ offers, offer.2.1 ≠ lower.2.1) (different : provider ≠ lower.1)
    (newer : ∀ offer ∈ more, offer.1 = provider → offer.2.1 = lower.2.1 →
      lower.2.2 < offer.2.2) : ¬ after.Serves lower.2 provider := by
  rw [List.append_cons] at joins
  obtain ⟨opened, first, second⟩ := joins.split
  obtain ⟨middle, aside, single⟩ := first.split
  obtain ⟨known, member⟩ := aside.aside others
  obtain ⟨version, taken, becomes, enters⟩ := joinsAll_singleton.mp single
  have newest : version = lower.2.2 := taken.of_newest fun other newer' held =>
    lt_asymm newer' (older other ((known other).mp held))
  subst newest
  have out : ¬ opened.member lower.2 provider := by
    intro inside
    rcases (enters _ _).mp inside with already | ⟨_, same⟩
    · exact lt_irrefl _ (older _ (sound _ _ ((member _ _).mp already)))
    · exact different same
  obtain ⟨still, outside⟩ := second.keepsOut ((becomes lower.2).mpr (Or.inr rfl)) out newer
  exact Groups.not_serves still outside

/-- A provider that comes first with a newer version is found for the lower one. -/
theorem JoinsAll.higher_first {higher : Provider × Key × Version}
    (joins : JoinsAll (offers ++ higher :: more) before after)
    (older : ∀ other, before.known (higher.2.1, other) → other < version)
    (below : version < higher.2.2) (others : ∀ offer ∈ offers, offer.2.1 ≠ higher.2.1) :
    after.Serves (higher.2.1, version) higher.1 := by
  rw [List.append_cons] at joins
  obtain ⟨opened, first, second⟩ := joins.split
  obtain ⟨middle, aside, single⟩ := first.split
  obtain ⟨known, _⟩ := aside.aside others
  obtain ⟨joined, taken, becomes, enters⟩ := joinsAll_singleton.mp single
  have newest : joined = higher.2.2 := taken.of_newest fun other newer held =>
    absurd (older other ((known other).mp held)) (not_lt.mpr (le_of_lt (below.trans newer)))
  subst newest
  refine second.serves ⟨higher.2.2, (becomes _).mpr (Or.inr rfl), le_of_lt below, ?_,
    (enters _ _).mpr (Or.inr ⟨rfl, rfl⟩)⟩
  intro other held enough
  rcases (becomes _).mp held with old | new
  · exact absurd (older other ((known other).mp old)) (not_lt.mpr enough)
  · exact le_of_eq (congrArg Prod.snd new).symm

end

end Offers
