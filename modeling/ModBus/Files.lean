import Mathlib.Data.List.Basic
import Mathlib.Logic.Function.Basic

/-! Files under names, as `open`, `write` and `rename` see them: a file is made where
there is none, it grows at its end, and one that is renamed takes the place of
whatever had the name before. A record that is too long for one file is kept in
several, of which only the current one grows. -/

namespace Files

abbrev Disk (α β : Type) := α → Option (List β)

namespace Disk

variable {α β : Type} {disk : Disk α β} {name other old new current : α} {names : List α}
  {more : List β}

def content (disk : Disk α β) (name : α) : List β := (disk name).getD []

def kept (disk : Disk α β) (names : List α) (current : α) : List β :=
  names.flatMap disk.content ++ disk.content current

theorem flatMap_congr {disk after : Disk α β}
    (same : ∀ name ∈ names, after.content name = disk.content name) :
    names.flatMap after.content = names.flatMap disk.content := by
  rw [List.flatMap_def, List.flatMap_def, List.map_congr_left same]

variable [DecidableEq α]

def create (disk : Disk α β) (name : α) : Disk α β :=
  Function.update disk name (some (disk.content name))

def append (disk : Disk α β) (name : α) (more : List β) : Disk α β :=
  Function.update disk name ((disk name).map (· ++ more))

def rename (disk : Disk α β) (old new : α) : Disk α β :=
  if (disk old).isSome then Function.update (Function.update disk old none) new (disk old) else disk

@[simp] theorem content_create (disk : Disk α β) (name other : α) :
    (disk.create name).content other = disk.content other := by
  by_cases same : other = name
  · subst same
    simp [create, content]
  · simp [create, content, Function.update_of_ne same]

@[simp] theorem create_isSome (disk : Disk α β) (name : α) : (disk.create name name).isSome := by
  simp [create]

@[simp] theorem append_isSome (disk : Disk α β) (name : α) (more : List β) :
    (disk.append name more name).isSome = (disk name).isSome := by
  simp [append]

theorem create_other (different : other ≠ name) : disk.create name other = disk other :=
  Function.update_of_ne different _ _

theorem append_other (different : other ≠ name) : disk.append name more other = disk other :=
  Function.update_of_ne different _ _

theorem rename_isSome (held : (disk old).isSome) (notOld : other ≠ old) :
    (disk.rename old new other).isSome ↔ other = new ∨ (disk other).isSome := by
  rw [rename, if_pos held]
  by_cases same : other = new
  · subst same
    simp [held]
  · rw [Function.update_of_ne same, Function.update_of_ne notOld]
    simp [same]

theorem content_append (held : (disk name).isSome) :
    (disk.append name more).content name = disk.content name ++ more := by
  obtain ⟨bytes, found⟩ := Option.isSome_iff_exists.mp held
  simp [append, content, found]

theorem content_append_other (different : other ≠ name) :
    (disk.append name more).content other = disk.content other := by
  rw [content, append, Function.update_of_ne different, content]

theorem content_rename_new (held : (disk old).isSome) :
    (disk.rename old new).content new = disk.content old := by
  rw [content, rename, if_pos held, Function.update_self, content]

theorem content_rename_old (held : (disk old).isSome) (different : old ≠ new) :
    (disk.rename old new).content old = [] := by
  rw [content, rename, if_pos held, Function.update_of_ne different, Function.update_self,
    Option.getD_none]

theorem content_rename_other (notOld : other ≠ old) (notNew : other ≠ new) :
    (disk.rename old new).content other = disk.content other := by
  rw [content, rename]
  split
  · rw [Function.update_of_ne notNew, Function.update_of_ne notOld, content]
  · rw [content]

@[simp] theorem kept_create (disk : Disk α β) (name : α) (names : List α) (current : α) :
    (disk.create name).kept names current = disk.kept names current := by
  rw [kept, kept, content_create, flatMap_congr fun other _ => content_create disk name other]

theorem kept_append (held : (disk current).isSome) (apart : current ∉ names) :
    (disk.append current more).kept names current = disk.kept names current ++ more := by
  have others : ∀ name ∈ names, (disk.append current more).content name = disk.content name := by
    intro name member
    apply content_append_other
    rintro rfl
    exact apart member
  rw [kept, kept, flatMap_congr others, content_append held, List.append_assoc]

theorem kept_rename (held : (disk current).isSome) (apart : current ∉ names) (fresh : new ∉ names)
    (different : current ≠ new) :
    (disk.rename current new).kept (names ++ [new]) current = disk.kept names current := by
  have others : ∀ name ∈ names, (disk.rename current new).content name = disk.content name := by
    intro name member
    apply content_rename_other
    · rintro rfl
      exact apart member
    · rintro rfl
      exact fresh member
  rw [kept, kept, List.flatMap_append, flatMap_congr others, List.flatMap_singleton,
    content_rename_new held, content_rename_old held different, List.append_nil]

end Disk

end Files
