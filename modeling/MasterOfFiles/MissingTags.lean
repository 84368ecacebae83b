import MasterOfFiles.ReachableStates

/-!
Requests on a File:Tag that is not there. Every handler but one looks the Tag up and
answers with an error when it finds none; DELETE drops the outcome of its operation and
answers that all went well. A name that was deleted stays missing until it is made
again, unless its entry hid another one of the same name.
-/
namespace MasterOfFiles.MissingTags

open KeyedLists ByteBuffers StorageState StorageFiles StorageOperations PartialRuns
open TagLookups BlockZero TruncateEffects RequestEffects ReachableStates

variable {md5 : Bytes → String} {sb : Superbloque} {s s' : Storage}

section Faltantes

def Falta (s : Storage) (r : RutaTag) : Prop := buscarTag s r.1 r.2 = none

instance (s : Storage) (r : RutaTag) : Decidable (Falta s r) :=
  inferInstanceAs (Decidable (_ = none))

/-- The File:Tag a request needs; of a TAG, the origin. -/
def nombra : Solicitud → Option RutaTag
  | .create _ _ => none
  | .truncate f t _ => some (rutaTag f t)
  | .tag fo tgo _ _ => some (rutaTag fo tgo)
  | .commit f t => some (rutaTag f t)
  | .writeBlock f t _ _ => some (rutaTag f t)
  | .readBlock f t _ => some (rutaTag f t)
  | .flush f t => some (rutaTag f t)
  | .delete f t => some (rutaTag f t)

/-- Not a DELETE of a missing Tag. -/
def Admisible (s : Storage) (x : Solicitud) : Prop :=
  ∀ f t, x = .delete f t → (buscarTag s f t).isSome

theorem falta_rechazada {x : Solicitud} {r : RutaTag} (hx : nombra x = some r) (hr : Falta s r)
    (hadm : Admisible s x) : atenderWorker md5 sb s x = .ok (s, .error) := by
  unfold Falta at hr
  cases x with
  | create f t => simp [nombra] at hx
  | truncate f t tamanio =>
    obtain rfl := Option.some.inj hx
    have hop : ∃ c, c ≠ 0 ∧ operacionTruncateFile sb s f t tamanio = .ok (s, c) := by
      unfold operacionTruncateFile
      split_ifs
      · exact ⟨-1, by decide, rfl⟩
      · exact ⟨1, by decide, by rw [show buscarTag s f t = none from hr]⟩
    obtain ⟨c, hc, hop⟩ := hop
    have hresp : respuestaDe c = .error := if_neg hc
    simp only [atenderWorker, hop, hresp]
  | tag fo tgo f t =>
    obtain rfl := Option.some.inj hx
    have hop : operacionTagFile s fo tgo f t = (s, -1) := by
      unfold operacionTagFile
      rw [show buscarTag s fo tgo = none from hr]
    simp only [atenderWorker, hop]
    rfl
  | commit f t =>
    obtain rfl := Option.some.inj hx
    have hop : operacionCommitTag md5 s f t = .ok (s, -1) := by
      unfold operacionCommitTag
      rw [show buscarTag s f t = none from hr]
    simp only [atenderWorker, storageCommit, hop]
    rfl
  | writeBlock f t n contenido =>
    obtain rfl := Option.some.inj hx
    simp only [atenderWorker, storageWriteBlock, show buscarTag s f t = none from hr]
  | readBlock f t n =>
    obtain rfl := Option.some.inj hx
    simp only [atenderWorker, storageReadBlock, show buscarTag s f t = none from hr]
  | flush f t =>
    obtain rfl := Option.some.inj hx
    simp only [atenderWorker, storageFlush, show buscarTag s f t = none from hr,
      Option.isNone_none, if_true]
  | delete f t =>
    obtain rfl := Option.some.inj hx
    have hsome := hadm f t rfl
    rw [show buscarTag s f t = none from hr] at hsome
    exact absurd hsome Bool.false_ne_true

theorem delete_aceptada (md5 : Bytes → String) (sb : Superbloque) (s : Storage) (f t : String) :
    ∃ s', atenderWorker md5 sb s (.delete f t) = .ok (s', .ok) := ⟨_, rfl⟩

end Faltantes

section Borrados

/-- Whether a request that is carried out makes the File:Tag. -/
def crea (s : Storage) (x : Solicitud) (r : RutaTag) : Bool :=
  match x with
  | .create f t => (buscarTag s f t).isNone && r == rutaTag f t
  | .tag fo tgo f t => (buscarTag s fo tgo).isSome && r == rutaTag f t
  | _ => false

def borra (s : Storage) : Solicitud → List RutaTag
  | .delete f t => if (buscarTag s f t).isSome then [rutaTag f t] else []
  | _ => []

/-- The names deleted and not made again since, after one more request. -/
def borradosTras (s : Storage) (borrados : List RutaTag) (x : Solicitud) : List RutaTag :=
  borra s x ++ borrados.filter fun r => !crea s x r

/-- A request beside the names that have been deleted. -/
def pasoConBorrados (md5 : Bytes → String) (sb : Superbloque) (e : Storage × List RutaTag)
    (x : Solicitud) : Except Fallo (Storage × List RutaTag) :=
  (paso md5 sb e.1 x).map fun s' => (s', borradosTras e.1 e.2 x)

theorem falta_of_isSome_eq {r : RutaTag} (hr : Falta s r)
    (h : (buscarTag s' r.1 r.2).isSome = (buscarTag s r.1 r.2).isSome) : Falta s' r := by
  unfold Falta at hr ⊢
  rw [hr] at h
  apply Option.not_isSome_iff_eq_none.mp
  rw [h]
  exact Bool.false_ne_true

theorem falta_conserva (md5 : Bytes → String) (sb : Superbloque) {r : RutaTag} {x : Solicitud}
    (hcreate : x ≠ .create r.1 r.2) (htag : ∀ fo tgo, x ≠ .tag fo tgo r.1 r.2) :
    Conserva md5 sb (fun s => Falta s r) x where
  crear := by
    rintro s f t mc rfl _ hr _
    unfold Falta
    rw [buscarTag_creado, show buscarTag s r.1 r.2 = none from hr, Option.none_or, if_neg]
    rintro ⟨rfl, rfl⟩
    exact hcreate rfl
  ampliar := fun s f t _ _ _ _ _ hr _ _ => falta_of_isSome_eq hr
    (isSome_buscarTag_modificarTag s (nameTag_agregarBloqueLogico _) f t r.1 r.2)
  reducir := by
    intro s f t _ _ _ hr _
    apply falta_of_isSome_eq hr
    unfold reducir
    split
    · rfl
    · exact isSome_buscarTag_modificarTag s nameTag_quitarUltimo f t r.1 r.2
  terminar := by
    intro s f t tamanio _ _ hr _
    obtain ⟨mc, hmc⟩ := terminarTruncate_eq s f t tamanio
    apply falta_of_isSome_eq hr
    rw [hmc]
    exact isSome_buscarTag_modificarTag s (nameTag_fijarTamanio tamanio) f t r.1 r.2
  copiar := by
    rintro s fo tgo f t tag mc rfl _ hr _
    unfold Falta
    rw [buscarTag_copiarTag, show buscarTag s r.1 r.2 = none from hr, Option.none_or, if_neg]
    rintro ⟨rfl, rfl⟩
    exact htag fo tgo rfl
  commitear := fun s f t tag _ _ _ _ _ hr _ _ _ _ => falta_of_isSome_eq hr
    (isSome_buscarTag_modificarTag s (nameTag_commitear tag.listaBlockLogicos) f t r.1 r.2)
  escribir := fun _ _ _ _ _ _ _ _ _ hr _ => hr
  eliminar := by
    intro s f t tag _ _ hr htag'
    have hne : rutaTag r.1 r.2 ≠ rutaTag f t := by
      rintro heq
      obtain ⟨hf, ht⟩ := Prod.mk.inj heq
      unfold Falta at hr
      rw [hf, ht, htag'] at hr
      exact Option.some_ne_none tag hr
    exact (buscarTag_quitarTag_ne s hne).trans hr

/-- A missing Tag is missing after a request that does not make it. -/
theorem falta_paso (h : Coherente sb s) {x : Solicitud} {r : RutaTag} (hr : Falta s r)
    (hcrea : crea s x r = false) (hop : paso md5 sb s x = .ok s') : Falta s' r := by
  by_cases hcreate : x = .create r.1 r.2
  · subst hcreate
    simp [crea, show buscarTag s r.1 r.2 = none from hr, rutaTag] at hcrea
  · by_cases htag : ∃ fo tgo, x = .tag fo tgo r.1 r.2
    · obtain ⟨fo, tgo, rfl⟩ := htag
      rcases paso_tag h hop with ⟨rfl, -⟩ | ⟨tag, mc, htag, -⟩
      · exact hr
      · simp [crea, htag, rutaTag] at hcrea
    · have hc := falta_conserva md5 sb hcreate fun fo tgo hx => htag ⟨fo, tgo, hx⟩
      exact (hc.paso h hr hop).2

/-- No DELETE is made of an entry that hides another one of its name. -/
def SinGemelo (e : Storage × List RutaTag) (x : Solicitud) : Prop :=
  ∀ f t, x = .delete f t → (buscarTag e.1 f t).isSome → gemelo e.1 f t = none

def BorradosFaltan (e : Storage × List RutaTag) : Prop := ∀ r ∈ e.2, Falta e.1 r

/-- After a request the deleted names are missing exactly when it was no DELETE that
exposes a Tag. -/
theorem borradosFaltan_paso_iff {e e' : Storage × List RutaTag} {x : Solicitud}
    (h : Coherente sb e.1) (hfaltan : BorradosFaltan e)
    (hop : pasoConBorrados md5 sb e x = .ok e') : BorradosFaltan e' ↔ SinGemelo e x := by
  obtain ⟨s, borrados⟩ := e
  obtain ⟨s', hpaso, rfl⟩ : ∃ s', paso md5 sb s x = .ok s' ∧
      (s', borradosTras s borrados x) = e' := by
    unfold pasoConBorrados at hop
    cases hpaso : paso md5 sb s x with
    | error f => simp [hpaso, Except.map] at hop
    | ok s' => exact ⟨s', rfl, by simpa [hpaso, Except.map] using hop⟩
  have hdelete : ∀ f t, x = .delete f t → (buscarTag s f t).isSome →
      buscarTag s' f t = gemelo s f t := by
    rintro f t rfl hsome
    rcases paso_delete h hpaso with ⟨-, hnone⟩ | ⟨tag, htag, rfl⟩
    · rw [hnone] at hsome
      exact absurd hsome Bool.false_ne_true
    · exact buscarTag_quitarTag_self s f t
  constructor
  · rintro hfaltan' f t rfl hsome
    have hmem : rutaTag f t ∈ borradosTras s borrados (.delete f t) := by
      apply List.mem_append_left
      simp only [borra, hsome, if_true, List.mem_singleton]
    exact (hdelete f t rfl hsome).symm.trans (hfaltan' _ hmem)
  · intro hsin r hr
    rcases List.mem_append.mp hr with hr | hr
    · cases x with
      | delete f t =>
        simp only [borra] at hr
        split_ifs at hr with hsome
        · obtain rfl := List.mem_singleton.mp hr
          exact (hdelete f t rfl hsome).trans (hsin f t rfl hsome)
        · exact absurd hr List.not_mem_nil
      | _ => exact absurd hr List.not_mem_nil
    · obtain ⟨hmem, hcrea⟩ := List.mem_filter.mp hr
      exact falta_paso h (hfaltan r hmem) (by simpa using hcrea) hpaso

end Borrados

section Corrida

/-- A request on a File:Tag that is missing, or was deleted and not made again, is
answered with an error and changes nothing. -/
def Informado (md5 : Bytes → String) (sb : Superbloque) (e : Storage × List RutaTag)
    (x : Solicitud) : Prop :=
  ∀ r, nombra x = some r → Falta e.1 r ∨ r ∈ e.2 →
    atenderWorker md5 sb e.1 x = .ok (e.1, .error)

/-- FLUSH tells a Tag that is there from one that is not. -/
theorem informados_iff (md5 : Bytes → String) (sb : Superbloque) (e : Storage × List RutaTag) :
    (∀ x, Admisible e.1 x → Informado md5 sb e x) ↔ BorradosFaltan e := by
  constructor
  · intro h r hr
    have hflush := h (.flush r.1 r.2) (by rintro f t ⟨⟩) r rfl (Or.inr hr)
    unfold Falta
    cases htag : buscarTag e.1 r.1 r.2 with
    | none => rfl
    | some tag => simp [atenderWorker, storageFlush, htag] at hflush
  · intro hfaltan x hadm r hx hr
    apply falta_rechazada hx _ hadm
    exact hr.elim id (hfaltan r)

/-- Along a run from a fresh start, requests on missing or deleted names are refused in
every state exactly when no DELETE exposes a Tag of the same name, those that are no
DELETE of a missing Tag; one that is is never refused. -/
theorem faltantesInformados_iff (md5 : Bytes → String) (sb : Superbloque) (xs : List Solicitud) :
    (AlongRun (pasoConBorrados md5 sb) (fun e => ∀ x, Admisible e.1 x → Informado md5 sb e x)
        (freshStart sb, []) xs ↔
      EachStep (pasoConBorrados md5 sb) SinGemelo (freshStart sb, []) xs) ∧
    ∀ e x, ¬Admisible e.1 x → ¬Informado md5 sb e x := by
  constructor
  · have hcoherente : ∀ e x e', Coherente sb e.1 → pasoConBorrados md5 sb e x = .ok e' →
        Coherente sb e'.1 := by
      intro e x e' h hop
      unfold pasoConBorrados at hop
      cases hpaso : paso md5 sb e.1 x with
      | error f => simp [hpaso, Except.map] at hop
      | ok s' =>
        obtain rfl : (s', borradosTras e.1 e.2 x) = e' := by
          simpa [hpaso, Except.map] using hop
        exact coherente_paso h hpaso
    simp only [informados_iff md5 sb]
    apply alongRun_iff_eachStep (I := fun e => Coherente sb e.1) (A := fun _ => True)
    · exact fun e x e' _ hI hP hop => borradosFaltan_paso_iff hI hP hop
    · exact fun e x e' _ hI _ _ hop => hcoherente e x e' hI hop
    · exact coherente_freshStart sb
    · exact fun r hr => absurd hr List.not_mem_nil
    · exact fun _ _ => trivial
  · intro e x hadm hinformado
    obtain ⟨f, t, rfl, hnone⟩ : ∃ f t, x = .delete f t ∧ buscarTag e.1 f t = none := by
      obtain ⟨f, hadm⟩ := not_forall.mp hadm
      obtain ⟨t, hadm⟩ := not_forall.mp hadm
      obtain ⟨hx, hnone⟩ := Classical.not_imp.mp hadm
      exact ⟨f, t, hx, Option.not_isSome_iff_eq_none.mp hnone⟩
    have herror := hinformado (rutaTag f t) rfl (Or.inl hnone)
    obtain ⟨s', hok⟩ := delete_aceptada md5 sb e.1 f t
    rw [hok] at herror
    simp at herror

/-- DELETE of a Tag that never was. -/
theorem not_faltantesInformados : ¬ ∀ md5 sb s x r, Alcanzable md5 sb s → nombra x = some r →
    Falta s r → atenderWorker md5 sb s x = .ok (s, .error) := by
  intro h
  have herror := h hashLegible superbloqueChico (freshStart superbloqueChico) (.delete "a" "b")
    (rutaTag "a" "b") (Reaches.refl _) rfl (by decide)
  obtain ⟨s', hok⟩ := delete_aceptada hashLegible superbloqueChico
    (freshStart superbloqueChico) "a" "b"
  rw [hok] at herror
  simp at herror

end Corrida

end MasterOfFiles.MissingTags
