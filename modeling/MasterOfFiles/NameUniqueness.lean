import Mathlib.Data.List.Nodup
import MasterOfFiles.ReachableStates

/-!
Names of Files and Tags. CREATE appends a File entry whether or not the File
exists, and TAG appends a Tag whether or not the destination exists; no other
request adds a name. Lookups go to the first entry, so names stay distinct
exactly while neither is asked to repeat one.
-/
namespace MasterOfFiles.NameUniqueness

open KeyedLists BlockNames StorageState StorageFiles StorageOperations PartialRuns
open TagLookups BlockZero TruncateEffects RequestEffects ReachableStates

variable {md5 : ByteBuffers.Bytes → String} {sb : Superbloque} {s s' : Storage} {f t : String}

/-- No two Files share a name, and no two Tags of a File do. -/
def NamesUnique (s : Storage) : Prop :=
  (s.listaFiles.map File.nameFile).Nodup ∧
    ∀ file ∈ s.listaFiles, (file.tags.map Tag.nameTag).Nodup

instance (s : Storage) : Decidable (NamesUnique s) := by
  unfold NamesUnique
  infer_instance

section Listas

theorem nodup_map_concat {α : Type*} {key : α → String} {l : List α} {x : α} :
    ((l ++ [x]).map key).Nodup ↔ (l.map key).Nodup ∧ first key (key x) l = none := by
  rw [first_eq_none_iff, List.map_append, List.map_singleton, List.nodup_append_comm,
    List.singleton_append, List.nodup_cons, and_comm]

theorem map_nameFile_modificarTags (s : Storage) (f : String) (h : List Tag → List Tag) :
    (modificarTags s f h).listaFiles.map File.nameFile = s.listaFiles.map File.nameFile := by
  refine map_modifyFirst ?_
  exact fun _ => rfl

/-- Updates that keep a Tag's name keep all names. -/
theorem namesUnique_modificarTag (hunique : NamesUnique s) (f t : String) {g : Tag → Tag}
    (hg : ∀ tag, (g tag).nameTag = tag.nameTag) : NamesUnique (modificarTag s f t g) := by
  constructor
  · unfold modificarTag
    rw [map_nameFile_modificarTags]
    exact hunique.1
  · refine forall_modifyFirst hunique.2 fun file hfile => ?_
    rw [map_modifyFirst hg]
    exact hunique.2 file (mem_of_first hfile)

theorem namesUnique_quitarTag (hunique : NamesUnique s) (f t : String) :
    NamesUnique (quitarTag s f t) := by
  constructor
  · unfold quitarTag
    rw [map_nameFile_modificarTags]
    exact hunique.1
  · refine forall_modifyFirst hunique.2 fun file hfile => ?_
    exact (hunique.2 file (mem_of_first hfile)).sublist (sublist_eraseFirst.map Tag.nameTag)

/-- Appending a Tag repeats a name exactly when a lookup already finds it. -/
theorem namesUnique_agregarTag_iff (hunique : NamesUnique s) (hfile : (buscarFile s f).isSome)
    (tag : Tag) : NamesUnique (agregarTag s f tag) ↔ buscarTag s f tag.nameTag = none := by
  obtain ⟨file, hfile⟩ := Option.isSome_iff_exists.mp hfile
  have hbuscar : buscarTag s f tag.nameTag = first Tag.nameTag tag.nameTag file.tags := by
    rw [buscarTag, hfile, Option.bind_some]
  rw [hbuscar]
  constructor
  · intro hnuevo
    have hmem : { file with tags := file.tags ++ [tag] } ∈ (agregarTag s f tag).listaFiles := by
      have hself := buscarFile_modificarTags_self s f (· ++ [tag])
      rw [hfile] at hself
      exact mem_of_first hself
    exact (nodup_map_concat.mp (hnuevo.2 _ hmem)).2
  · intro hnone
    constructor
    · unfold agregarTag
      rw [map_nameFile_modificarTags]
      exact hunique.1
    · refine forall_modifyFirst hunique.2 fun file' hfile' => ?_
      obtain rfl := Option.some.inj (hfile.symm.trans hfile')
      exact nodup_map_concat.mpr ⟨hunique.2 file (mem_of_first hfile), hnone⟩

theorem namesUnique_crearFile_iff (hunique : NamesUnique s) (f : String) :
    NamesUnique (crearFile s f) ↔ buscarFile s f = none := by
  constructor
  · intro hnuevo
    exact (nodup_map_concat.mp hnuevo.1).2
  · intro hnone
    refine ⟨nodup_map_concat.mpr ⟨hunique.1, hnone⟩, ?_⟩
    intro file hfile
    rcases List.mem_append.mp hfile with hold | hnew
    · exact hunique.2 file hold
    · obtain rfl := List.mem_singleton.mp hnew
      exact List.nodup_nil

/-- A repeated name is not repaired by appending. -/
theorem namesUnique_of_agregarTag {tag : Tag} (h : NamesUnique (agregarTag s f tag)) :
    (s.listaFiles.map File.nameFile).Nodup := by
  have hnames := h.1
  unfold agregarTag at hnames
  rw [map_nameFile_modificarTags] at hnames
  exact hnames

end Listas

section Corrida

/-- CREATE is not asked for a new Tag of an existing File, nor TAG for an
existing destination. -/
def AltaNueva (s : Storage) : Solicitud → Prop
  | .create f t => (buscarTag s f t).isSome ∨ buscarFile s f = none
  | .tag fo tgo f t => buscarTag s fo tgo = none ∨ buscarTag s f t = none
  | _ => True

theorem namesUnique_creado_iff (hunique : NamesUnique s) (mc : RutaTag → Option ConfigText.Config) :
    NamesUnique (creado s f t mc) ↔ buscarFile s f = none := by
  constructor
  · intro hnuevo
    exact (nodup_map_concat.mp (namesUnique_of_agregarTag hnuevo)).2
  · intro hnone
    have hcrear := (namesUnique_crearFile_iff hunique f).mpr hnone
    refine (namesUnique_agregarTag_iff hcrear (buscarFile_crearFile_self s f) (tagNuevo t)).mpr ?_
    change buscarTag (crearFile s f) f t = none
    rw [buscarTag_crearFile, buscarTag, hnone]
    rfl

theorem namesUnique_copiarTag_iff (hunique : NamesUnique s) (tag : Tag)
    (mc : RutaTag → Option ConfigText.Config) :
    NamesUnique (copiarTag s f t tag mc) ↔ buscarTag s f t = none := by
  have hasegurar : NamesUnique (asegurarFile s f) := by
    unfold asegurarFile
    split_ifs with hfile
    · exact hunique
    · exact (namesUnique_crearFile_iff hunique f).mpr (Option.not_isSome_iff_eq_none.mp hfile)
  rw [← buscarTag_asegurarFile s f f t]
  exact namesUnique_agregarTag_iff hasegurar (buscarFile_asegurarFile s f) (copia t tag)

/-- Requests other than CREATE and TAG add no name. -/
theorem conserva_namesUnique {x : Solicitud} (hcreate : ∀ f t, x ≠ .create f t)
    (htag : ∀ fo tgo f t, x ≠ .tag fo tgo f t) : Conserva md5 sb NamesUnique x where
  crear := fun _ f t _ heq => absurd heq (hcreate f t)
  ampliar := fun _ f t _ _ _ _ _ hQ _ _ =>
    namesUnique_modificarTag hQ f t (nameTag_agregarBloqueLogico _)
  reducir := by
    intro s₁ f t _ _ _ hQ _
    unfold reducir
    split
    · exact hQ
    · exact namesUnique_modificarTag hQ f t nameTag_quitarUltimo
  terminar := by
    intro s₁ f t tamanio _ _ hQ _
    obtain ⟨mc, hmc⟩ := terminarTruncate_eq s₁ f t tamanio
    rw [hmc]
    exact namesUnique_modificarTag hQ f t (nameTag_fijarTamanio tamanio)
  copiar := fun _ fo tgo f t _ _ heq => absurd heq (htag fo tgo f t)
  commitear := fun _ f t _ _ _ _ _ _ hQ _ _ _ _ =>
    namesUnique_modificarTag hQ f t (nameTag_commitear _)
  escribir := fun _ _ _ _ _ _ _ _ _ hQ _ => hQ
  eliminar := fun _ f t _ _ _ hQ _ => namesUnique_quitarTag hQ f t

theorem namesUnique_paso_iff {x : Solicitud} (h : Coherente sb s) (hunique : NamesUnique s)
    (hop : paso md5 sb s x = .ok s') : NamesUnique s' ↔ AltaNueva s x := by
  by_cases hcreate : ∃ f t, x = .create f t
  · obtain ⟨f, t, rfl⟩ := hcreate
    rcases paso_create hop with ⟨rfl, hsome⟩ | ⟨mc, hnone, rfl⟩
    · exact iff_of_true hunique (Or.inl hsome)
    · rw [namesUnique_creado_iff hunique]
      constructor
      · exact fun hfile => Or.inr hfile
      · rintro (hsome | hfile)
        · simp [hnone] at hsome
        · exact hfile
  · by_cases htag : ∃ fo tgo f t, x = .tag fo tgo f t
    · obtain ⟨fo, tgo, f, t, rfl⟩ := htag
      rcases paso_tag h hop with ⟨rfl, hnone⟩ | ⟨tag, mc, horigen, rfl⟩
      · exact iff_of_true hunique (Or.inl hnone)
      · rw [namesUnique_copiarTag_iff hunique]
        constructor
        · exact fun hnone => Or.inr hnone
        · rintro (hnone | hnone)
          · simp [horigen] at hnone
          · exact hnone
    · have hc : Conserva md5 sb NamesUnique x :=
        conserva_namesUnique (fun f t heq => hcreate ⟨f, t, heq⟩)
          fun fo tgo f t heq => htag ⟨fo, tgo, f, t, heq⟩
      refine iff_of_true (hc.paso h hunique hop).2 ?_
      unfold AltaNueva
      split
      · next f t => exact absurd ⟨f, t, rfl⟩ hcreate
      · next fo tgo f t => exact absurd ⟨fo, tgo, f, t, rfl⟩ htag
      · trivial

theorem namesUnique_freshStart (sb : Superbloque) : NamesUnique (freshStart sb) := by
  obtain ⟨mc, hmc⟩ := freshStart_eq sb
  rw [hmc]
  constructor
  · exact List.nodup_singleton _
  · intro file hfile
    obtain rfl := List.mem_singleton.mp hfile
    exact List.nodup_singleton _

/-- Names are unique all along a run just when no request of the run repeats one. -/
theorem namesUnique_alongRun_iff (md5 : ByteBuffers.Bytes → String) (sb : Superbloque)
    (xs : List Solicitud) :
    AlongRun (paso md5 sb) NamesUnique (freshStart sb) xs ↔
      EachStep (paso md5 sb) AltaNueva (freshStart sb) xs := by
  refine alongRun_iff_eachStep (I := Coherente sb) (A := fun _ => True) ?_ ?_
    (coherente_freshStart sb) (namesUnique_freshStart sb) xs fun _ _ => trivial
  · exact fun s x s' _ hcoh hunique hop => namesUnique_paso_iff hcoh hunique hop
  · exact fun s x s' _ hcoh _ _ hop => coherente_paso hcoh hop

/-- A second Tag of a File gets the File a second entry. -/
theorem not_namesUnique_create : ¬ ∀ md5 sb s, Alcanzable md5 sb s → NamesUnique s := by
  intro h
  have hunique := h hashLegible superbloqueChico _ (alcanzable_estadoTras hashLegible
    superbloqueChico [.create "a" "b", .create "a" "c"])
  exact absurd hunique (by decide)

end Corrida

end MasterOfFiles.NameUniqueness
