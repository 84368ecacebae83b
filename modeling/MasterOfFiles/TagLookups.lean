import MasterOfFiles.StorageOperations

/-!
What buscar_tag finds after each update of the File list. Updates act on the
entry a lookup returns, so a second File or Tag with the same name is seen only
after the first is removed.
-/
namespace MasterOfFiles.TagLookups

open KeyedLists StorageState StorageFiles StorageOperations

variable {s s' : Storage} {f t f' t' : String}

theorem buscarTag_congr (h : s'.listaFiles = s.listaFiles) (f t : String) :
    buscarTag s' f t = buscarTag s f t := by
  unfold buscarTag buscarFile
  rw [h]

theorem buscarTag_eq_some {tag : Tag} (h : buscarTag s f t = some tag) :
    ∃ file, buscarFile s f = some file ∧ first Tag.nameTag t file.tags = some tag :=
  Option.bind_eq_some_iff.mp h

theorem nameTag_of_buscarTag {tag : Tag} (h : buscarTag s f t = some tag) : tag.nameTag = t := by
  obtain ⟨file, _, hfirst⟩ := buscarTag_eq_some h
  exact key_of_first hfirst

/-- A Tag that is found belongs to a File of the list with the name searched. -/
theorem mem_of_buscarTag {tag : Tag} (h : buscarTag s f t = some tag) :
    ∃ file ∈ s.listaFiles, file.nameFile = f ∧ tag ∈ file.tags := by
  obtain ⟨file, hfile, hfirst⟩ := buscarTag_eq_some h
  exact ⟨file, mem_of_first hfile, key_of_first hfile, mem_of_first hfirst⟩

/-- A new File entry has no Tags, and goes behind any entry of the same name. -/
theorem buscarTag_crearFile (s : Storage) (f f' t' : String) :
    buscarTag (crearFile s f) f' t' = buscarTag s f' t' := by
  unfold buscarTag buscarFile crearFile
  rw [first_append]
  cases hfirst : first File.nameFile f' s.listaFiles with
  | some file => rfl
  | none =>
    rcases eq_or_ne f f' with hname | hname
    · simp [first, hname]
    · simp [first, hname]

theorem buscarFile_crearFile_self (s : Storage) (f : String) :
    (buscarFile (crearFile s f) f).isSome := by
  unfold buscarFile crearFile
  rw [first_append]
  simp [first]

section Modificar

variable (s)

theorem buscarFile_modificarTags_self (f : String) (h : List Tag → List Tag) :
    buscarFile (modificarTags s f h) f =
      (buscarFile s f).map fun file => { file with tags := h file.tags } :=
  first_modifyFirst_self fun _ => rfl

theorem buscarTag_modificarTags_self (f t : String) (h : List Tag → List Tag) :
    buscarTag (modificarTags s f h) f t =
      (buscarFile s f).bind fun file => first Tag.nameTag t (h file.tags) := by
  unfold buscarTag
  rw [buscarFile_modificarTags_self, Option.bind_map]
  rfl

theorem buscarTag_modificarTags_ne (t' : String) (h : List Tag → List Tag) (hf : f' ≠ f) :
    buscarTag (modificarTags s f h) f' t' = buscarTag s f' t' := by
  have hfile : buscarFile (modificarTags s f h) f' = buscarFile s f' :=
    first_modifyFirst_ne (fun _ => rfl) hf
  unfold buscarTag
  rw [hfile]

/-- Only lookups of the Tags that `h` changes are affected. -/
theorem buscarTag_modificarTags_of_eq (h : List Tag → List Tag)
    (heq : f' = f → ∀ tags, first Tag.nameTag t' (h tags) = first Tag.nameTag t' tags) :
    buscarTag (modificarTags s f h) f' t' = buscarTag s f' t' := by
  rcases eq_or_ne f' f with rfl | hf
  · rw [buscarTag_modificarTags_self]
    unfold buscarTag
    congr 1
    funext file
    exact heq rfl file.tags
  · exact buscarTag_modificarTags_ne s t' h hf

theorem buscarTag_agregarTag {tag : Tag} (hfile : (buscarFile s f).isSome) (f' t' : String) :
    buscarTag (agregarTag s f tag) f' t' =
      (buscarTag s f' t').or (if f' = f ∧ tag.nameTag = t' then some tag else none) := by
  unfold agregarTag
  rcases eq_or_ne f' f with rfl | hf
  · obtain ⟨file, hfile⟩ := Option.isSome_iff_exists.mp hfile
    rw [buscarTag_modificarTags_self, buscarTag, hfile]
    simp [first_append, first]
  · rw [buscarTag_modificarTags_ne s t' _ hf, if_neg (fun h => hf h.1), Option.or_none]

theorem buscarTag_modificarTag_self {g : Tag → Tag} (hg : ∀ tag, (g tag).nameTag = tag.nameTag)
    (f t : String) : buscarTag (modificarTag s f t g) f t = (buscarTag s f t).map g := by
  unfold modificarTag
  rw [buscarTag_modificarTags_self]
  unfold buscarTag
  cases buscarFile s f with
  | none => rfl
  | some file => exact first_modifyFirst_self hg

theorem buscarTag_modificarTag_ne {g : Tag → Tag} (hg : ∀ tag, (g tag).nameTag = tag.nameTag)
    (h : rutaTag f' t' ≠ rutaTag f t) :
    buscarTag (modificarTag s f t g) f' t' = buscarTag s f' t' := by
  refine buscarTag_modificarTags_of_eq s _ ?_
  rintro rfl tags
  exact first_modifyFirst_ne hg fun ht => h (by rw [ht])

/-- An update that fixes the Tag found, if there is one, changes nothing. -/
theorem modificarTag_eq_self {g : Tag → Tag} (h : ∀ tag, buscarTag s f t = some tag → g tag = tag) :
    modificarTag s f t g = s := by
  have hfiles : (modificarTag s f t g).listaFiles = s.listaFiles := by
    refine modifyFirst_eq_self fun file hfile => ?_
    have htags : modifyFirst Tag.nameTag t g file.tags = file.tags := by
      refine modifyFirst_eq_self fun tag htag => h tag ?_
      rw [buscarTag, buscarFile, hfile, Option.bind_some, htag]
    rw [htags]
  change { s with listaFiles := (modificarTag s f t g).listaFiles } = s
  rw [hfiles]

theorem modificarTag_of_none (g : Tag → Tag) (h : buscarTag s f t = none) :
    modificarTag s f t g = s :=
  modificarTag_eq_self s fun tag htag => by simp [h] at htag

theorem modificarTag_modificarTag {g : Tag → Tag} (hg : ∀ tag, (g tag).nameTag = tag.nameTag)
    (f t : String) (g' : Tag → Tag) :
    modificarTag (modificarTag s f t g) f t g' = modificarTag s f t (g' ∘ g) := by
  have hfiles : (modificarTag (modificarTag s f t g) f t g').listaFiles =
      (modificarTag s f t (g' ∘ g)).listaFiles := by
    refine (modifyFirst_modifyFirst ?_).trans ?_
    · exact fun _ => rfl
    · unfold modificarTag modificarTags
      congr 1
      funext file
      simp only [Function.comp, modifyFirst_modifyFirst hg]
  change { s with listaFiles := (modificarTag (modificarTag s f t g) f t g').listaFiles } = _
  rw [hfiles]
  rfl

theorem isSome_buscarTag_modificarTag {g : Tag → Tag}
    (hg : ∀ tag, (g tag).nameTag = tag.nameTag) (f t f' t' : String) :
    (buscarTag (modificarTag s f t g) f' t').isSome = (buscarTag s f' t').isSome := by
  rcases eq_or_ne (rutaTag f' t') (rutaTag f t) with h | h
  · obtain ⟨rfl, rfl⟩ := Prod.mk.inj h
    rw [buscarTag_modificarTag_self s hg, Option.isSome_map]
  · rw [buscarTag_modificarTag_ne s hg h]

theorem buscarTag_quitarTag_ne (h : rutaTag f' t' ≠ rutaTag f t) :
    buscarTag (quitarTag s f t) f' t' = buscarTag s f' t' := by
  refine buscarTag_modificarTags_of_eq s _ ?_
  rintro rfl tags
  exact first_eraseFirst_ne fun ht => h (by rw [ht])

end Modificar

section TodoTag

/-- A property of every Tag in the list, found by a lookup or not. -/
def TodoTag (P : String → Tag → Prop) (s : Storage) : Prop :=
  ∀ file ∈ s.listaFiles, ∀ tag ∈ file.tags, P file.nameFile tag

variable {P : String → Tag → Prop}

theorem todoTag_congr (h : s'.listaFiles = s.listaFiles) : TodoTag P s' ↔ TodoTag P s := by
  unfold TodoTag
  rw [h]

theorem TodoTag.of_buscarTag (h : TodoTag P s) {tag : Tag} (htag : buscarTag s f t = some tag) :
    P f tag := by
  obtain ⟨file, hfile, rfl, hmem⟩ := mem_of_buscarTag htag
  exact h file hfile tag hmem

theorem TodoTag.modificarTags (h : TodoTag P s) {g : List Tag → List Tag}
    (hg : ∀ file, buscarFile s f = some file → (∀ tag ∈ file.tags, P f tag) →
      ∀ tag ∈ g file.tags, P f tag) : TodoTag P (modificarTags s f g) := by
  refine forall_modifyFirst h fun file hfile => ?_
  obtain rfl : file.nameFile = f := key_of_first hfile
  exact hg file hfile (h file (mem_of_first hfile))

theorem TodoTag.modificarTag (h : TodoTag P s) {g : Tag → Tag}
    (hg : ∀ tag, buscarTag s f t = some tag → P f tag → P f (g tag)) :
    TodoTag P (modificarTag s f t g) := by
  refine h.modificarTags fun file hfile htags => ?_
  refine forall_modifyFirst htags fun tag hfirst => ?_
  refine hg tag ?_ (htags tag (mem_of_first hfirst))
  rw [buscarTag, hfile, Option.bind_some, hfirst]

/-- An update of one entry leaves the others as they were. -/
theorem TodoTag.modificarTag_iff (h : TodoTag P s) {g : Tag → Tag}
    (hg : ∀ tag, (g tag).nameTag = tag.nameTag) {tag : Tag} (htag : buscarTag s f t = some tag) :
    TodoTag P (StorageState.modificarTag s f t g) ↔ P f (g tag) := by
  constructor
  · intro hmodificar
    refine hmodificar.of_buscarTag (t := t) ?_
    rw [buscarTag_modificarTag_self s hg, htag, Option.map_some]
  · intro hP
    refine h.modificarTag fun tag' htag' _ => ?_
    obtain rfl := Option.some.inj (htag.symm.trans htag')
    exact hP

theorem TodoTag.agregarTag (h : TodoTag P s) {tag : Tag} (htag : P f tag) :
    TodoTag P (agregarTag s f tag) := by
  refine h.modificarTags fun file _ htags tag' htag' => ?_
  rcases List.mem_append.mp htag' with hold | hnew
  · exact htags tag' hold
  · obtain rfl := List.mem_singleton.mp hnew
    exact htag

theorem TodoTag.quitarTag (h : TodoTag P s) (f t : String) : TodoTag P (quitarTag s f t) :=
  h.modificarTags fun _ _ htags tag htag => htags tag (sublist_eraseFirst.subset htag)

theorem TodoTag.crearFile (h : TodoTag P s) (f : String) : TodoTag P (crearFile s f) := by
  intro file hfile
  rcases List.mem_append.mp hfile with hold | hnew
  · exact h file hold
  · obtain rfl := List.mem_singleton.mp hnew
    exact fun tag htag => absurd htag List.not_mem_nil

theorem TodoTag.asegurarFile (h : TodoTag P s) (f : String) : TodoTag P (asegurarFile s f) := by
  unfold StorageOperations.asegurarFile
  split_ifs
  · exact h
  · exact h.crearFile f

end TodoTag

/-- The entry a DELETE of the Tag would expose. -/
def gemelo (s : Storage) (nameFile nameTag : String) : Option Tag :=
  (buscarFile s nameFile).bind fun file =>
    first Tag.nameTag nameTag (eraseFirst Tag.nameTag nameTag file.tags)

theorem buscarTag_quitarTag_self (s : Storage) (f t : String) :
    buscarTag (quitarTag s f t) f t = gemelo s f t :=
  buscarTag_modificarTags_self s f t _

end MasterOfFiles.TagLookups
