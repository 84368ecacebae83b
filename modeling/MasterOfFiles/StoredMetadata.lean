import Mathlib.Data.Set.Finite.Basic
import MasterOfFiles.HashIndex

/-!
What a Storage keeps on the disk of what it has in memory: the metadata file of
each Tag directory, which always has the lines of some metadata, and the index
file, which always has the entries of the index in memory.
-/
namespace MasterOfFiles.StoredMetadata

open KeyedLists ByteBuffers ConfigText BlockNames StorageState StorageFiles StorageOperations
open PartialRuns TagLookups BlockZero TruncateEffects RequestEffects ReachableStates HashIndex

variable {md5 : Bytes → String} {sb : Superbloque} {s s' : Storage} {f t : String}

section Archivos

structure MetadatosGuardados (d : Disco) : Prop where
  escritas : ∀ rt lineas, d.metadataConfig rt = some lineas →
    ∃ metadata, Escrita lineas metadata ∧ ∀ e ∈ metadata.blocksFisicosUsados, e = "0"
  carpetas : ∀ rt, d.tagDirs rt = true → (d.metadataConfig rt).isSome

variable {d d' : Disco}

theorem metadatosGuardados_congr (h : MetadatosGuardados d) (hdirs : d'.tagDirs = d.tagDirs)
    (hmetadata : d'.metadataConfig = d.metadataConfig) : MetadatosGuardados d' where
  escritas := hmetadata ▸ h.escritas
  carpetas := by
    rw [hdirs, hmetadata]
    exact h.carpetas

/-- A file that is written again has the lines of what was written. -/
theorem MetadatosGuardados.escribir (h : MetadatosGuardados d) {rt : RutaTag} {lineas : Config}
    {metadata : Metadata} (hescrita : Escrita lineas metadata)
    (hcero : ∀ e ∈ metadata.blocksFisicosUsados, e = "0") (hdirs : ∀ rt', rt' ≠ rt →
      d'.tagDirs rt' = d.tagDirs rt')
    (hmetadata : d'.metadataConfig = Function.update d.metadataConfig rt (some lineas)) :
    MetadatosGuardados d' where
  escritas := by
    intro rt' lineas' hlineas
    rw [hmetadata] at hlineas
    rcases eq_or_ne rt' rt with rfl | hne
    · rw [Function.update_self] at hlineas
      obtain rfl := Option.some.inj hlineas
      exact ⟨metadata, hescrita, hcero⟩
    · rw [Function.update_of_ne hne] at hlineas
      exact h.escritas rt' lineas' hlineas
  carpetas := by
    intro rt' hdir
    rw [hmetadata]
    rcases eq_or_ne rt' rt with rfl | hne
    · rw [Function.update_self]
      rfl
    · rw [Function.update_of_ne hne]
      rw [hdirs rt' hne] at hdir
      exact h.carpetas rt' hdir

theorem MetadatosGuardados.crearTag (h : MetadatosGuardados d) (t : String) (rt : RutaTag) :
    MetadatosGuardados (crearTag (d.crearRutaTag rt) t rt).2 := by
  have hdirs : ∀ rt', rt' ≠ rt → (StorageFiles.crearTag (d.crearRutaTag rt) t rt).2.tagDirs rt' =
      d.tagDirs rt' := fun rt' hne => Function.update_of_ne hne ..
  exact h.escribir (escrita_append_inicial ((d.metadataConfig rt).getD []))
    (fun _ he => absurd he List.not_mem_nil) hdirs rfl

theorem MetadatosGuardados.actualizar (h : MetadatosGuardados d) (rt : RutaTag)
    {metadata : Metadata} (hcero : ∀ e ∈ metadata.blocksFisicosUsados, e = "0") :
    MetadatosGuardados (actualizarMetadata d rt metadata) := by
  cases hlineas : d.metadataConfig rt with
  | none =>
    unfold actualizarMetadata
    rw [hlineas]
    exact h
  | some lineas =>
    obtain ⟨nuevas, hescrita, hd⟩ := actualizarMetadata_escrita hlineas metadata
    rw [hd]
    exact h.escribir hescrita hcero (fun _ _ => rfl) rfl

theorem MetadatosGuardados.eliminar (h : MetadatosGuardados d) (rt : RutaTag) :
    MetadatosGuardados (d.eliminarCarpetaConContenido rt) where
  escritas := by
    intro rt' lineas hlineas
    rcases eq_or_ne rt' rt with rfl | hne
    · simp [Disco.eliminarCarpetaConContenido] at hlineas
    · refine h.escritas rt' lineas (Eq.trans ?_ hlineas)
      exact (Function.update_of_ne hne ..).symm
  carpetas := by
    intro rt' hdir
    rcases eq_or_ne rt' rt with rfl | hne
    · simp [Disco.eliminarCarpetaConContenido] at hdir
    · have hantes : d.tagDirs rt' = true := Eq.trans (Function.update_of_ne hne ..).symm hdir
      have hmetadata : (d.eliminarCarpetaConContenido rt).metadataConfig rt' =
          d.metadataConfig rt' := Function.update_of_ne hne ..
      rw [hmetadata]
      exact h.carpetas rt' hantes

theorem MetadatosGuardados.linkear (h : MetadatosGuardados d) (rt : RutaTag) :
    MetadatosGuardados (linkearBlockInicial d rt) := by
  unfold linkearBlockInicial
  split
  · next d' hlink =>
    unfold Disco.link at hlink
    split_ifs at hlink
    rw [← Except.ok.inj hlink]
    exact metadatosGuardados_congr h rfl rfl
  · exact h

end Archivos

section Pasos

/-- The disk has the index, and every Tag directory its metadata. -/
def Guardado (s : Storage) : Prop :=
  s.disco.blocksHashIndex = s.hashIndexConfig ∧ MetadatosGuardados s.disco

theorem guardado_congr (h : Guardado s) (hindex : s'.hashIndexConfig = s.hashIndexConfig)
    (hguardado : s'.disco.blocksHashIndex = s.disco.blocksHashIndex)
    (hdirs : s'.disco.tagDirs = s.disco.tagDirs)
    (hmetadata : s'.disco.metadataConfig = s.disco.metadataConfig) : Guardado s' :=
  ⟨hguardado.trans (h.1.trans hindex.symm), metadatosGuardados_congr h.2 hdirs hmetadata⟩

theorem guardado_actualizar (h : Guardado s) (rt : RutaTag) {metadata : Metadata}
    (hcero : ∀ e ∈ metadata.blocksFisicosUsados, e = "0") :
    Guardado (cambiarDisco s (actualizarMetadata s.disco rt metadata)) := by
  refine ⟨?_, h.2.actualizar rt hcero⟩
  obtain ⟨mc, hmc⟩ := actualizarMetadata_eq s.disco rt metadata
  rw [hmc]
  exact h.1

theorem guardado_guardarMetadata (h : Guardado s)
    (hcero : ∀ tag, buscarTag s f t = some tag → ∀ e ∈ tag.metadata.blocksFisicosUsados, e = "0") :
    Guardado (guardarMetadata s f t) := by
  unfold guardarMetadata
  split
  · exact h
  · next tag htag => exact guardado_actualizar h (rutaTag f t) (hcero tag htag)

theorem guardado_create (h : Guardado s) (f t : String) :
    Guardado (operacionCreateFile s f t).1 := by
  unfold operacionCreateFile
  split_ifs
  · exact h
  · exact ⟨h.1, h.2.crearTag t (rutaTag f t)⟩

theorem guardado_copiarBloque {p : Storage × List BlockLogico} (h : Guardado p.1)
    (bl : BlockLogico) : Guardado (copiarBloque f t p bl).1 := by
  have hlinkear : ∀ d d' nameBL nameBF, linkearBlABf d f t nameBL nameBF = some d' →
      ∃ links, d' = cambiarEnlaces d links := by
    intro d d' nameBL nameBF hd
    unfold linkearBlABf at hd
    split at hd
    · next d₁ hlink =>
      obtain rfl := Option.some.inj hd
      unfold Disco.link at hlink
      split_ifs at hlink
      exact ⟨_, (Except.ok.inj hlink).symm⟩
    · obtain rfl := Option.some.inj hd
      exact ⟨d.links, rfl⟩
    · simp at hd
  unfold copiarBloque
  split
  · exact h
  · next d' hd' =>
    obtain ⟨links, rfl⟩ := hlinkear _ _ _ _ hd'
    dsimp only
    split
    · exact guardado_congr h rfl rfl rfl rfl
    · exact guardado_congr h rfl rfl rfl rfl

theorem guardado_tag (hcoh : Coherente sb s) (h : Guardado s) (fo tgo f t : String) :
    Guardado (operacionTagFile s fo tgo f t).1 := by
  unfold operacionTagFile
  split
  · exact h
  · next tag htag =>
    have hasegurar : Guardado (asegurarFile s f) := by
      rw [asegurarFile_eq]
      exact guardado_congr h rfl rfl rfl rfl
    have hcopia : ∀ (bls : List BlockLogico) (p : Storage × List BlockLogico), Guardado p.1 →
        Guardado (bls.foldl (copiarBloque f t) p).1 := by
      intro bls
      induction bls with
      | nil => exact fun _ hp => hp
      | cons bl bls ih => exact fun p hp => ih _ (guardado_copiarBloque hp bl)
    have hbloques := hcopia tag.listaBlockLogicos (cambiarDisco (asegurarFile s f)
        (crearTag ((asegurarFile s f).disco.crearRutaTag (rutaTag f t)) t (rutaTag f t)).2, [])
      ⟨hasegurar.1, hasegurar.2.crearTag t (rutaTag f t)⟩
    refine guardado_congr (guardado_actualizar hbloques (rutaTag f t) ?_) rfl rfl rfl rfl
    intro e he
    rcases List.mem_append.mp he with hnuevo | hcopiado
    · rw [crearMetadata_append_inicial] at hnuevo
      exact absurd hnuevo List.not_mem_nil
    · exact (hcoh.tag_cero htag).usados e hcopiado

theorem guardado_commit (hcoh : Coherente sb s) (h : Guardado s) {c : ℤ}
    (hop : operacionCommitTag md5 s f t = .ok (s', c)) : Guardado s' := by
  obtain ⟨rfl, _⟩ | ⟨tag, s₁, bls, htag, _, hbloques, rfl, _⟩ := commit_pasos hop
  · exact h
  · have hasoc := (hcoh.tag_cero htag).asociados
    obtain ⟨rfl, -, index, guardado, hs₁, -⟩ := procesarBloques_ok hcoh hasoc hbloques
    have hindice := (procesarBloques_indice hcoh hasoc h.1 hbloques).1
    refine guardado_guardarMetadata ⟨hindice, metadatosGuardados_congr h.2 ?_ ?_⟩ ?_
    · rw [hs₁]
      rfl
    · rw [hs₁]
      rfl
    · intro tag' htag'
      rw [buscarTag_modificarTag_self _ (nameTag_commitear _), hs₁] at htag'
      obtain ⟨tag'', htag'', rfl⟩ := Option.map_eq_some_iff.mp htag'
      exact (hcoh.tag_cero htag'').usados

theorem conserva_guardado {x : Solicitud} (hcreate : ∀ f t, x ≠ .create f t)
    (htag : ∀ fo tgo f t, x ≠ .tag fo tgo f t) (hcommit : ∀ f t, x ≠ .commit f t) :
    Conserva md5 sb Guardado x where
  crear := fun _ f t _ heq => absurd heq (hcreate f t)
  ampliar := fun _ _ _ _ _ _ _ _ hQ _ _ => guardado_congr hQ rfl rfl rfl rfl
  reducir := by
    intro s f t _ _ _ hQ _
    unfold reducir
    split
    · exact hQ
    · exact guardado_congr hQ rfl rfl rfl rfl
  terminar := by
    intro s f t tamanio _ hcoh hQ _
    refine guardado_guardarMetadata (guardado_congr hQ rfl rfl rfl rfl) fun tag' htag' => ?_
    rw [buscarTag_modificarTag_self s (nameTag_fijarTamanio tamanio)] at htag'
    obtain ⟨tag, htag, rfl⟩ := Option.map_eq_some_iff.mp htag'
    exact (tagEnCero_fijarTamanio (hcoh.tag_cero htag) tamanio).usados
  copiar := fun _ fo tgo f t _ _ heq => absurd heq (htag fo tgo f t)
  commitear := fun _ f t _ _ _ _ heq => absurd heq (hcommit f t)
  escribir := fun _ _ _ _ _ _ _ _ _ hQ _ => ⟨rfl, metadatosGuardados_congr hQ.2 rfl rfl⟩
  eliminar := fun _ f t _ _ _ hQ _ => ⟨hQ.1, hQ.2.eliminar (rutaTag f t)⟩

theorem guardado_paso {x : Solicitud} (hcoh : Coherente sb s) (h : Guardado s)
    (hop : paso md5 sb s x = .ok s') : Guardado s' := by
  by_cases hcreate : ∃ f t, x = .create f t
  · obtain ⟨f, t, rfl⟩ := hcreate
    rw [← Except.ok.inj hop]
    exact guardado_create h f t
  · by_cases htag : ∃ fo tgo f t, x = .tag fo tgo f t
    · obtain ⟨fo, tgo, f, t, rfl⟩ := htag
      rw [← Except.ok.inj hop]
      exact guardado_tag hcoh h fo tgo f t
    · by_cases hcommit : ∃ f t, x = .commit f t
      · obtain ⟨f, t, rfl⟩ := hcommit
        obtain ⟨c, hop⟩ := paso_commit hop
        exact guardado_commit hcoh h hop
      · have hc : Conserva md5 sb Guardado x :=
          conserva_guardado (fun f t heq => hcreate ⟨f, t, heq⟩)
            (fun fo tgo f t heq => htag ⟨fo, tgo, f, t, heq⟩)
            fun f t heq => hcommit ⟨f, t, heq⟩
        exact (hc.paso hcoh h hop).2

theorem guardado_freshStart (sb : Superbloque) : Guardado (freshStart sb) := by
  have hvacio : MetadatosGuardados
      (iniciarBloquesFisicos sb
        ⟨[], [], crearBitmapVacio (cantBlock sb), [], discoVacio⟩).disco := by
    unfold iniciarBloquesFisicos
    rw [iniciarBloques_eq]
    exact ⟨fun rt lineas hlineas => by simp [discoVacio] at hlineas,
      fun rt hdir => by simp [discoVacio] at hdir⟩
  refine ⟨?_, ?_⟩
  · obtain ⟨mc, hmc⟩ := freshStart_eq sb
    rw [hmc]
  · have hcrear := hvacio.crearTag "BASE" (rutaTag "initial_file" "BASE")
    refine (hcrear.linkear _).actualizar _ fun e he => ?_
    rcases List.mem_append.mp he with hnuevo | hcero
    · rw [crearMetadata_append_inicial] at hnuevo
      exact absurd hnuevo List.not_mem_nil
    · exact List.mem_singleton.mp hcero

theorem guardado_alcanzable (h : Alcanzable md5 sb s) : Guardado s := by
  have hinv : Coherente sb s ∧ Guardado s := by
    refine run_invariant (I := fun s => Coherente sb s ∧ Guardado s) ?_
      ⟨coherente_freshStart sb, guardado_freshStart sb⟩ h
    exact fun s x s' hs hop => ⟨coherente_paso hs.1 hop, guardado_paso hs.1 hs.2 hop⟩
  exact hinv.2

end Pasos

section Carpetas

/-- Every Tag directory is of a Tag in memory, and there are finitely many links. -/
structure EnOrden (s : Storage) : Prop where
  carpeta_visible : ∀ rt, s.disco.tagDirs rt = true → (buscarTag s rt.1 rt.2).isSome
  enlaces_finitos : {r | (s.disco.links r).isSome}.Finite

theorem carpeta_visible_agregar {rt : RutaTag} {tagDirs : RutaTag → Bool} {tag : Tag}
    (h : ∀ rt, tagDirs rt = true → (buscarTag s rt.1 rt.2).isSome)
    (hbuscar : ∀ f' t', buscarTag s' f' t' =
      (buscarTag s f' t').or (if f' = f ∧ t = t' then some tag else none))
    (hdir : Function.update tagDirs (rutaTag f t) true rt = true) :
    (buscarTag s' rt.1 rt.2).isSome := by
  rw [hbuscar, Option.isSome_or]
  rcases eq_or_ne rt (rutaTag f t) with rfl | hne
  · simp [rutaTag]
  · rw [Function.update_of_ne hne] at hdir
    rw [h rt hdir, Bool.true_or]

theorem carpeta_visible_modificar {g : Tag → Tag} (hQ : EnOrden s)
    (hg : ∀ tag, (g tag).nameTag = tag.nameTag) (f t : String) {rt : RutaTag}
    (hdir : s.disco.tagDirs rt = true) :
    (buscarTag (modificarTag s f t g) rt.1 rt.2).isSome :=
  (isSome_buscarTag_modificarTag s hg f t rt.1 rt.2).trans (hQ.carpeta_visible rt hdir)

theorem carpeta_visible_eliminado (hQ : EnOrden s) {tag : Tag} {rt : RutaTag}
    (hdir : (eliminado s f t tag).disco.tagDirs rt = true) :
    (buscarTag (eliminado s f t tag) rt.1 rt.2).isSome := by
  rcases eq_or_ne rt (rutaTag f t) with rfl | hne
  · simp [eliminado, quitarTag, modificarTags, cambiarDisco,
      Disco.eliminarCarpetaConContenido] at hdir
  · have hantes : s.disco.tagDirs rt = true :=
      Eq.trans (Function.update_of_ne hne ..).symm hdir
    have hbuscar : buscarTag (eliminado s f t tag) rt.1 rt.2 = buscarTag s rt.1 rt.2 :=
      buscarTag_quitarTag_ne _ hne
    rw [hbuscar]
    exact hQ.carpeta_visible rt hantes

theorem enlaces_finitos_update {links : RutaBlock → Option String}
    (h : {r | (links r).isSome}.Finite) (r₀ : RutaBlock) (b : Option String) :
    {r | (Function.update links r₀ b r).isSome}.Finite := by
  refine (h.insert r₀).subset fun r hr => ?_
  rcases eq_or_ne r r₀ with rfl | hne
  · exact Set.mem_insert ..
  · refine Set.mem_insert_of_mem _ ?_
    change (Function.update links r₀ b r).isSome at hr
    rwa [Function.update_of_ne hne] at hr

theorem enlaces_finitos_enlazarCero {links : RutaBlock → Option String}
    (h : {r | (links r).isSome}.Finite) (f t : String) (bls : List BlockLogico) :
    {r | (enlazarCero links (rutaTag f t) (bls.map BlockLogico.nombreBlock) r).isSome}.Finite := by
  refine (h.union (List.finite_toSet (bls.map
    fun bl => rutaBlockLogico f t bl.nombreBlock))).subset fun r hr => ?_
  change (enlazarCero links (rutaTag f t) (bls.map BlockLogico.nombreBlock) r).isSome at hr
  unfold enlazarCero at hr
  split_ifs at hr with hnuevo
  · obtain ⟨hdir, hname, -⟩ := hnuevo
    obtain ⟨bl, hbl, hname⟩ := List.mem_map.mp hname
    obtain ⟨rfl, rfl⟩ := Prod.mk.inj hdir
    exact Or.inr (List.mem_map.mpr ⟨bl, hbl, by rw [hname]; rfl⟩)
  · exact Or.inl hr

theorem conserva_enOrden (md5 : Bytes → String) (sb : Superbloque) (x : Solicitud) :
    Conserva md5 sb EnOrden x where
  crear := by
    intro s f t mc _ _ hQ _
    exact ⟨fun rt hdir => carpeta_visible_agregar hQ.carpeta_visible
      (buscarTag_creado s f t mc) hdir, hQ.enlaces_finitos⟩
  ampliar := by
    intro s f t _ nro k _ _ hQ _ _
    exact ⟨fun rt hdir => carpeta_visible_modificar hQ
        (nameTag_agregarBloqueLogico (crearNombreBloqueLogico nro)) f t hdir,
      enlaces_finitos_update hQ.enlaces_finitos ..⟩
  reducir := by
    intro s f t _ _ _ hQ _
    unfold reducir
    split
    · exact hQ
    · exact ⟨fun rt hdir => carpeta_visible_modificar hQ nameTag_quitarUltimo f t hdir,
        enlaces_finitos_update hQ.enlaces_finitos ..⟩
  terminar := by
    intro s f t tamanio _ _ hQ _
    obtain ⟨mc, hmc⟩ := terminarTruncate_eq s f t tamanio
    rw [hmc]
    exact ⟨fun rt hdir => carpeta_visible_modificar hQ (nameTag_fijarTamanio tamanio) f t hdir,
      hQ.enlaces_finitos⟩
  copiar := by
    intro s _ _ f t tag mc _ _ hQ _
    exact ⟨fun rt hdir => carpeta_visible_agregar hQ.carpeta_visible
        (buscarTag_copiarTag s f t tag mc) hdir,
      enlaces_finitos_enlazarCero hQ.enlaces_finitos f t tag.listaBlockLogicos⟩
  commitear := by
    intro s f t tag index guardado mc _ _ hQ _ _ _ _
    have hindice : EnOrden (cambiarIndice s index guardado) :=
      ⟨hQ.carpeta_visible, hQ.enlaces_finitos⟩
    exact ⟨fun rt hdir => carpeta_visible_modificar hindice
        (nameTag_commitear tag.listaBlockLogicos) f t hdir, hQ.enlaces_finitos⟩
  escribir := fun _ _ _ _ _ _ _ _ _ hQ _ => ⟨hQ.carpeta_visible, hQ.enlaces_finitos⟩
  eliminar := by
    intro s f t tag _ _ hQ _
    refine ⟨fun rt hdir => carpeta_visible_eliminado hQ hdir,
      hQ.enlaces_finitos.subset fun r hr => ?_⟩
    change (s.disco.links r).isSome
    by_contra hno
    rw [Option.not_isSome_iff_eq_none] at hno
    change (if directorio r = rutaTag f t then none else s.disco.links r).isSome at hr
    simp [hno] at hr

theorem enOrden_alcanzable (h : Alcanzable md5 sb s) : EnOrden s := by
  have hinicio : EnOrden (freshStart sb) := by
    obtain ⟨mc, hmc⟩ := freshStart_eq sb
    rw [hmc]
    refine ⟨fun rt hdir => ?_, enlaces_finitos_update (by simp) rutaInicial _⟩
    rcases eq_or_ne rt (rutaTag "initial_file" "BASE") with rfl | hne
    · rfl
    · dsimp only at hdir
      rw [Function.update_of_ne hne] at hdir
      simp at hdir
  have hinv : Coherente sb s ∧ EnOrden s := by
    refine run_invariant (I := fun s => Coherente sb s ∧ EnOrden s) ?_
      ⟨coherente_freshStart sb, hinicio⟩ h
    exact fun s x s' hs hop => (conserva_enOrden md5 sb x).paso hs.1 hs.2 hop
  exact hinv.2

end Carpetas

end MasterOfFiles.StoredMetadata
