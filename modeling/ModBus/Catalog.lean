import Mathlib.Order.Lattice

/-! Catalogs of versioned entries, where an offer is taken for the least known
version that is no older. What a provider is believed to offer is then a
snapshot of its offers only if each of them is taken for itself. -/

namespace Offers

structure Catalog (Key Version : Type) where
  known : Key × Version → Prop
  believed : Key × Version → Prop

variable {Key Version : Type} [LinearOrder Version]

/-- The version that an offer is taken for: the least known one that will do, or
else its own. -/
inductive TakenFor (catalog : Catalog Key Version) (offer : Key × Version) : Version → Prop
  | known {version} : catalog.known (offer.1, version) → offer.2 ≤ version →
      (∀ other, catalog.known (offer.1, other) → offer.2 ≤ other → version ≤ other) →
      TakenFor catalog offer version
  | new : (∀ other, catalog.known (offer.1, other) → other < offer.2) →
      TakenFor catalog offer offer.2

def Lists (offer : Key × Version) (before after : Catalog Key Version) : Prop :=
  ∃ version, TakenFor before offer version ∧
    (∀ entry, after.known entry ↔ before.known entry ∨ entry = (offer.1, version)) ∧
    ∀ entry, after.believed entry ↔ before.believed entry ∨ entry = (offer.1, version)

inductive ListsAll : List (Key × Version) → Catalog Key Version → Catalog Key Version → Prop
  | nil (catalog) : ListsAll [] catalog catalog
  | snoc {offers offer before middle after} : ListsAll offers before middle →
      Lists offer middle after → ListsAll (offers ++ [offer]) before after

def Exact (known : Key × Version → Prop) (offers : List (Key × Version)) : Prop :=
  ∀ earlier offer later, offers = earlier ++ offer :: later → offer ∉ earlier →
    known offer ∨ ∀ version, offer.2 < version →
      ¬ known (offer.1, version) ∧ (offer.1, version) ∉ earlier

def Shadowed (catalog : Catalog Key Version) (offer : Key × Version) : Prop :=
  ¬ catalog.known offer ∧ ∃ version, offer.2 < version ∧ catalog.known (offer.1, version)

def Settled (catalog : Catalog Key Version) (offer : Key × Version) : Prop :=
  ∃ version, catalog.known (offer.1, version) ∧ offer.2 ≤ version ∧
    (∀ other, catalog.known (offer.1, other) → offer.2 ≤ other → version ≤ other) ∧
    catalog.believed (offer.1, version)

section

variable {before middle after : Catalog Key Version} {offer other : Key × Version}
  {offers : List (Key × Version)} {version : Version}

theorem exact_nil (known : Key × Version → Prop) : Exact known [] := by
  intro earlier offer later same
  simp at same

theorem exact_snoc {known : Key × Version → Prop} :
    Exact known (offers ++ [offer]) ↔ Exact known offers ∧
      (offer ∉ offers → known offer ∨ ∀ version, offer.2 < version →
        ¬ known (offer.1, version) ∧ (offer.1, version) ∉ offers) := by
  constructor
  · intro exact'
    refine ⟨?_, exact' offers offer [] rfl⟩
    intro earlier first later same
    exact exact' earlier first (later ++ [offer]) (by simp [same])
  · rintro ⟨exact', last⟩ earlier first later same
    rcases List.eq_nil_or_concat later with rfl | ⟨more, end', rfl⟩
    · obtain ⟨rfl, single⟩ := List.append_inj' same rfl
      cases single
      exact last
    · have parts : offers ++ [offer] = (earlier ++ first :: more) ++ [end'] := by simpa using same
      exact exact' earlier first more (List.append_inj' parts rfl).1

theorem TakenFor.above (taken : TakenFor before offer version) : offer.2 ≤ version := by
  cases taken with
  | known _ above _ => exact above
  | new => exact le_refl _

theorem TakenFor.of_known (taken : TakenFor before offer version) (known : before.known offer) :
    version = offer.2 := by
  cases taken with
  | known _ above least => exact le_antisymm (least offer.2 known (le_refl _)) above
  | new => rfl

theorem TakenFor.itself (taken : TakenFor before offer offer.2) :
    before.known offer ∨ ∀ other, offer.2 < other → ¬ before.known (offer.1, other) := by
  cases taken with
  | known known => exact Or.inl known
  | new older => exact Or.inr fun other newer known => lt_asymm newer (older other known)

theorem TakenFor.of_newest (taken : TakenFor before offer version)
    (newest : ∀ other, offer.2 < other → ¬ before.known (offer.1, other)) : version = offer.2 := by
  cases taken with
  | known known above _ =>
      exact le_antisymm (not_lt.mp fun newer => newest version newer known) above
  | new => rfl

theorem ListsAll.mono (lists : ListsAll offers before after) :
    (∀ entry, before.known entry → after.known entry) ∧
      ∀ entry, before.believed entry → after.believed entry := by
  induction lists with
  | nil => exact ⟨fun _ => id, fun _ => id⟩
  | snoc _ last ih =>
      obtain ⟨version, _, known, believed⟩ := last
      exact ⟨fun entry held => (known entry).mpr (Or.inl (ih.1 entry held)),
        fun entry held => (believed entry).mpr (Or.inl (ih.2 entry held))⟩

theorem ListsAll.origin (lists : ListsAll offers before after) (entry : Key × Version)
    (known : after.known entry) : before.known entry ∨ entry ∈ offers := by
  induction lists with
  | nil => exact Or.inl known
  | @snoc offers offer before middle _ _ last ih =>
      obtain ⟨version, taken, becomes, _⟩ := last
      have older : middle.known entry → before.known entry ∨ entry ∈ offers ++ [offer] := fun held =>
        (ih held).imp_right (List.mem_append_left _)
      rcases (becomes entry).mp known with held | rfl
      · exact older held
      · cases taken with
        | known held => exact older held
        | new => exact Or.inr (by simp)

theorem ListsAll.served (lists : ListsAll offers before after) :
    ∀ offer ∈ offers, ∃ version, offer.2 ≤ version ∧ after.known (offer.1, version) := by
  induction lists with
  | nil => simp
  | snoc _ last ih =>
      obtain ⟨version, taken, becomes, _⟩ := last
      intro other member
      rcases List.mem_append.mp member with earlier | now
      · obtain ⟨older, above, known⟩ := ih other earlier
        exact ⟨older, above, (becomes _).mpr (Or.inl known)⟩
      · rw [List.mem_singleton.mp now]
        exact ⟨version, taken.above, (becomes _).mpr (Or.inr rfl)⟩

theorem ListsAll.believes (lists : ListsAll offers before after) :
    ∀ offer ∈ offers, ∃ version, offer.2 ≤ version ∧ after.believed (offer.1, version) := by
  induction lists with
  | nil => simp
  | snoc _ last ih =>
      obtain ⟨version, taken, _, becomes⟩ := last
      intro other member
      rcases List.mem_append.mp member with earlier | now
      · obtain ⟨older, above, believed⟩ := ih other earlier
        exact ⟨older, above, (becomes _).mpr (Or.inl believed)⟩
      · rw [List.mem_singleton.mp now]
        exact ⟨version, taken.above, (becomes _).mpr (Or.inr rfl)⟩

theorem ListsAll.known_of_believed (sound : ∀ entry, before.believed entry → before.known entry)
    (lists : ListsAll offers before after) : ∀ entry, after.believed entry → after.known entry := by
  induction lists with
  | nil => exact sound
  | snoc _ last ih =>
      obtain ⟨version, _, known, believed⟩ := last
      intro entry held
      exact (known entry).mpr (((believed entry).mp held).imp_left (ih sound entry))

theorem Shadowed.lists (shadowed : Shadowed before other) (lists : Lists offer before after) :
    Shadowed after other := by
  obtain ⟨hidden, newer, above, known⟩ := shadowed
  obtain ⟨version, taken, becomes, _⟩ := lists
  refine ⟨?_, newer, above, (becomes _).mpr (Or.inl known)⟩
  intro listed
  rcases (becomes other).mp listed with old | rfl
  · exact hidden old
  · cases taken with
    | known held => exact hidden held
    | new older => exact lt_asymm above (older newer known)

theorem ListsAll.believed_or_shadowed (lists : ListsAll offers before after) :
    ∀ offer ∈ offers, after.believed offer ∨ Shadowed after offer := by
  induction lists with
  | nil => simp
  | @snoc offers offer _ middle after _ last ih =>
      intro other member
      have step := last
      obtain ⟨version, taken, becomes, believed⟩ := last
      rcases List.mem_append.mp member with earlier | now
      · rcases ih other earlier with held | shadowed
        · exact Or.inl ((believed other).mpr (Or.inl held))
        · exact Or.inr (shadowed.lists step)
      · rw [List.mem_singleton.mp now]
        rcases lt_or_eq_of_le taken.above with newer | same
        · refine Or.inr ⟨?_, version, newer, (becomes _).mpr (Or.inr rfl)⟩
          intro known
          rcases (becomes offer).mp known with held | same
          · exact absurd (taken.of_known held) (ne_of_gt newer)
          · exact absurd (congrArg Prod.snd same) (ne_of_lt newer)
        · exact Or.inl ((believed offer).mpr (Or.inr (by rw [← same])))

theorem ListsAll.exact (sound : ∀ entry, before.believed entry → before.known entry)
    (lists : ListsAll offers before after) (exact' : Exact before.known offers) :
    ∀ entry, after.believed entry ↔ before.believed entry ∨ entry ∈ offers := by
  induction lists with
  | nil => simp
  | @snoc offers offer before middle _ earlier last ih =>
      obtain ⟨exactEarlier, exactLast⟩ := exact_snoc.mp exact'
      have believedMiddle := ih sound exactEarlier
      obtain ⟨version, taken, _, believed⟩ := last
      have itself : version = offer.2 := by
        by_cases repeated : offer ∈ offers
        · exact taken.of_known (earlier.known_of_believed sound offer
            ((believedMiddle offer).mpr (Or.inr repeated)))
        · rcases exactLast repeated with known | newest
          · exact taken.of_known (earlier.mono.1 offer known)
          · refine taken.of_newest fun other newer known => ?_
            obtain ⟨unknown, unoffered⟩ := newest other newer
            exact (earlier.origin _ known).elim unknown unoffered
      intro entry
      rw [believed, believedMiddle, itself, List.mem_append, List.mem_singleton, or_assoc]

theorem ListsAll.exact_of_believed (sound : ∀ entry, before.believed entry → before.known entry)
    (lists : ListsAll offers before after) (all : ∀ offer ∈ offers, after.believed offer) :
    Exact before.known offers := by
  induction lists with
  | nil => exact exact_nil _
  | @snoc offers offer before middle after earlier last ih =>
      have whole := earlier.snoc last
      have step := last
      obtain ⟨version, taken, becomes, believed⟩ := last
      have knownMiddle := earlier.known_of_believed sound
      have knownAfter := whole.known_of_believed sound
      refine exact_snoc.mpr ⟨ih sound fun other member => ?_, fun first => ?_⟩
      · rcases earlier.believed_or_shadowed other member with held | shadowed
        · exact held
        · exact absurd (knownAfter other (all other (List.mem_append_left _ member)))
            (shadowed.lists step).1
      · have itself : offer = (offer.1, version) ∨ middle.known offer := by
          rcases (believed offer).mp (all offer (by simp)) with held | same
          · exact Or.inr (knownMiddle offer held)
          · exact Or.inl same
        have same : version = offer.2 := by
          rcases itself with same | known
          · exact (congrArg Prod.snd same).symm
          · exact taken.of_known known
        subst same
        rcases taken.itself with known | newest
        · exact Or.inl ((earlier.origin offer known).resolve_right first)
        · refine Or.inr fun other newer => ⟨fun known => ?_, fun offered => ?_⟩
          · exact newest other newer (earlier.mono.1 _ known)
          · obtain ⟨above, further, known⟩ := earlier.served _ offered
            exact newest above (lt_of_lt_of_le newer further) known

/-- The catalog's belief is a snapshot of the offers exactly when it held
nothing else before and every offer is exact. -/
theorem ListsAll.snapshot_iff (sound : ∀ entry, before.believed entry → before.known entry)
    (lists : ListsAll offers before after) :
    (∀ entry, after.believed entry ↔ entry ∈ offers) ↔
      (∀ entry, before.believed entry → entry ∈ offers) ∧ Exact before.known offers := by
  constructor
  · intro snapshot
    exact ⟨fun entry held => (snapshot entry).mp (lists.mono.2 entry held),
      lists.exact_of_believed sound fun offer member => (snapshot offer).mpr member⟩
  · rintro ⟨nothing, exact'⟩ entry
    rw [lists.exact sound exact']
    exact ⟨fun either => either.elim (nothing entry) id, Or.inr⟩

theorem Settled.lists (settled : Settled before other) (lists : Lists offer before after) :
    Settled after other := by
  obtain ⟨version, known, above, least, believed⟩ := settled
  obtain ⟨taken, takenFor, becomes, believes⟩ := lists
  refine ⟨version, (becomes _).mpr (Or.inl known), above, ?_, (believes _).mpr (Or.inl believed)⟩
  intro third listed enough
  rcases (becomes _).mp listed with old | new
  · exact least third old enough
  · obtain ⟨sameKey, rfl⟩ := Prod.mk.injEq .. ▸ new
    cases takenFor with
    | known held => exact least third (sameKey ▸ held) enough
    | new older => exact le_of_lt (older version (sameKey ▸ known))

theorem Lists.settles (lists : Lists offer before after) : Settled after offer := by
  obtain ⟨version, taken, becomes, believes⟩ := lists
  refine ⟨version, (becomes _).mpr (Or.inr rfl), taken.above, ?_, (believes _).mpr (Or.inr rfl)⟩
  intro third listed enough
  rcases (becomes _).mp listed with old | new
  · cases taken with
    | known _ _ least => exact least third old enough
    | new older => exact absurd enough (not_le.mpr (older third old))
  · exact le_of_eq (congrArg Prod.snd new).symm

/-- After a list was taken in, taking any of its offers in again finds it settled. -/
theorem ListsAll.settled (lists : ListsAll offers before after) :
    ∀ offer ∈ offers, Settled after offer := by
  induction lists with
  | nil => simp
  | snoc _ last ih =>
      intro other member
      rcases List.mem_append.mp member with earlier | now
      · exact (ih other earlier).lists last
      · rw [List.mem_singleton.mp now]
        exact last.settles

end

end Offers
