import MasterOfFiles.PlainNames
import MasterOfFiles.TruncateOutcomes
import MasterOfFiles.WriteReadback

/-!
What READ_BLOCK answers after a TRUNCATE. No other Tag is touched. Of the Tag itself,
the shrink loop unlinks as many blocks from the end of the list as the size loses, and
the list may be shorter than the size; the growth loop can only make a listed block
readable that had no link.
-/
namespace MasterOfFiles.RetainedBlocks

open BlockNames ByteBuffers StorageState StorageFiles StorageOperations
open TagLookups BlockZero TruncateEffects TruncateOutcomes RequestEffects ReachableStates
open WriteReadback PlainNames

variable {md5 : Bytes → String} {sb : Superbloque} {s s' : Storage} {f t : String}

section Enlaces

/-- The names the growth loop links: as many of those it is asked for that have no link as
there are free bits of real blocks. -/
def nombresALinkear (sb : Superbloque) (s : Storage) (f t : String) (nro : ℤ) (m : ℕ) :
    List String :=
  if s.disco.tagDirs (rutaTag f t) then
    (((List.range m).map fun i : ℕ => crearNombreBloqueLogico (nro + i)).filter fun nombre =>
      (s.disco.links (rutaBlockLogico f t nombre)).isNone).take
        ((s.bitmap.take (cantBlock sb)).count false)
  else []

theorem nombresALinkear_zero (sb : Superbloque) (s : Storage) (f t : String) (nro : ℤ) :
    nombresALinkear sb s f t nro 0 = [] := by
  simp [nombresALinkear]

theorem map_range_succ (nro : ℤ) (m : ℕ) :
    ((List.range (m + 1)).map fun i : ℕ => crearNombreBloqueLogico (nro + i)) =
      crearNombreBloqueLogico nro ::
        (List.range m).map fun i : ℕ => crearNombreBloqueLogico (nro + 1 + i) := by
  rw [List.range_succ_eq_map, List.map_cons, List.map_map]
  congr 1
  · simp
  · refine List.map_congr_left fun i _ => ?_
    simp only [Function.comp]
    congr 1
    push_cast
    ring

theorem nombresALinkear_ampliar {nro : ℤ} {k : ℕ} (ha : Ampliable sb s f t nro k) (m : ℕ) :
    nombresALinkear sb s f t nro (m + 1) = crearNombreBloqueLogico nro ::
      nombresALinkear sb (ampliar s f t nro k) f t (nro + 1) m := by
  have hcount := count_ocupar (bit_of_libre ha.libre) ha.menor
  have hfilter : (((List.range m).map fun i : ℕ => crearNombreBloqueLogico (nro + 1 + i)).filter
        fun nombre => ((ampliar s f t nro k).disco.links (rutaBlockLogico f t nombre)).isNone) =
      ((List.range m).map fun i : ℕ => crearNombreBloqueLogico (nro + 1 + i)).filter
        fun nombre => (s.disco.links (rutaBlockLogico f t nombre)).isNone := by
    refine List.filter_congr fun nombre hnombre => ?_
    obtain ⟨i, -, rfl⟩ := List.mem_map.mp hnombre
    rw [links_ampliar, Function.update_of_ne]
    intro heq
    have hnro := crearNombreBloqueLogico_inj (congrArg (fun r : RutaBlock => r.2.2) heq)
    omega
  unfold nombresALinkear
  rw [if_pos ha.directorio, if_pos (show (ampliar s f t nro k).disco.tagDirs _ = true from
    ha.directorio), map_range_succ, List.filter_cons_of_pos (by simp [ha.sin_enlace]), hfilter,
    ← hcount, List.take_succ_cons]
  rfl

/-- A turn that finds a bit and links nothing. -/
theorem nombresALinkear_salteado {nro : ℤ} {k : ℕ}
    (hlibre : bitmapEncontrarBloqueLibre s.bitmap = some k) (hn : ¬Ampliable sb s f t nro k)
    (m : ℕ) : nombresALinkear sb s f t nro (m + 1) = nombresALinkear sb s f t (nro + 1) m := by
  unfold nombresALinkear
  split_ifs with hdir
  · rw [map_range_succ]
    by_cases hmenor : k < cantBlock sb
    · have hlink : ¬(s.disco.links
          (rutaBlockLogico f t (crearNombreBloqueLogico nro))).isNone = true := by
        intro hnone
        exact hn ⟨hlibre, hmenor, hdir, Option.isNone_iff_eq_none.mp hnone⟩
      rw [List.filter_cons, if_neg hlink]
    · have hcero : (s.bitmap.take (cantBlock sb)).count false = 0 := by
        by_contra hpos
        obtain ⟨k', hk', hlibre'⟩ := libre_of_count (Nat.pos_of_ne_zero hpos)
        obtain rfl := Option.some.inj (hlibre.symm.trans hlibre')
        exact hmenor hk'
      rw [hcero, List.take_zero, List.take_zero]
  · rfl

theorem nombresALinkear_agotado (hnone : bitmapEncontrarBloqueLibre s.bitmap = none)
    (f t : String) (nro : ℤ) (m : ℕ) : nombresALinkear sb s f t nro m = [] := by
  have hcero : (s.bitmap.take (cantBlock sb)).count false = 0 := by
    by_contra hpos
    obtain ⟨k, _, hk⟩ := libre_of_count (Nat.pos_of_ne_zero hpos)
    rw [hnone] at hk
    simp at hk
  unfold nombresALinkear
  rw [hcero, List.take_zero, ite_self]

/-- The links the growth loop leaves, however it ends. -/
theorem links_agrandar (h : ArchivosCompletos sb s) (nro : ℤ) (m : ℕ) (nombre : String) :
    if nombre ∈ nombresALinkear sb s f t nro m then
      s.disco.links (rutaBlockLogico f t nombre) = none ∧
        ((agrandar s f t nro m).1.disco.links (rutaBlockLogico f t nombre)).isSome
    else (agrandar s f t nro m).1.disco.links (rutaBlockLogico f t nombre) =
      s.disco.links (rutaBlockLogico f t nombre) := by
  induction m generalizing s nro with
  | zero =>
    rw [nombresALinkear_zero, if_neg List.not_mem_nil]
    rfl
  | succ m ih =>
    cases hlibre : bitmapEncontrarBloqueLibre s.bitmap with
    | none =>
      rw [agrandar_succ_agotado hlibre, nombresALinkear_agotado hlibre,
        if_neg List.not_mem_nil]
    | some k =>
      by_cases ha : Ampliable sb s f t nro k
      · rw [agrandar_succ_ampliable h ha]
        have hresto := ih (s := ampliar s f t nro k) h (nro + 1)
        rw [nombresALinkear_ampliar ha]
        rw [links_ampliar] at hresto
        by_cases hprimero : nombre = crearNombreBloqueLogico nro
        · obtain rfl := hprimero
          rw [if_pos (List.mem_cons_self ..)]
          rw [Function.update_self] at hresto
          refine ⟨ha.sin_enlace, ?_⟩
          split_ifs at hresto with hmem
          · exact hresto.1.elim
          · rw [hresto]
            rfl
        · rw [Function.update_of_ne fun heq =>
            hprimero (congrArg (fun r : RutaBlock => r.2.2) heq)] at hresto
          simpa only [List.mem_cons, hprimero, false_or] using hresto
      · rw [agrandar_succ_salteado h hlibre ha, nombresALinkear_salteado hlibre ha]
        exact ih h (nro + 1)

end Enlaces

section Lecturas

/-- What TRUNCATE does not touch: the block files, and the other Tags. -/
structure SoloTag (f t : String) (s s' : Storage) : Prop where
  archivos : s'.disco.physicalBlocks = s.disco.physicalBlocks
  buscar : ∀ f' t', rutaTag f' t' ≠ rutaTag f t → buscarTag s' f' t' = buscarTag s f' t'
  enlaces : ∀ f' t' nombre, rutaTag f' t' ≠ rutaTag f t →
    s'.disco.links (rutaBlockLogico f' t' nombre) = s.disco.links (rutaBlockLogico f' t' nombre)

theorem soloTag_truncate (h : Coherente sb s) {tamanio c : ℤ}
    (hop : operacionTruncateFile sb s f t tamanio = .ok (s', c)) :
    Coherente sb s' ∧ SoloTag f t s s' := by
  refine truncate_regla h ⟨rfl, fun _ _ _ => rfl, fun _ _ _ _ => rfl⟩ ?_ ?_ ?_ hop
  · intro s₁ nro k _ _ hsolo _
    refine ⟨hsolo.archivos, ?_, ?_⟩
    · intro f' t' hne
      rw [buscarTag_ampliar_ne hne]
      exact hsolo.buscar f' t' hne
    · intro f' t' nombre hne
      rw [links_ampliar, Function.update_of_ne (rutaBlockLogico_ne hne _ _)]
      exact hsolo.enlaces f' t' nombre hne
  · intro s₁ _ _ hsolo
    refine ⟨?_, ?_, ?_⟩
    · unfold reducir
      split
      · exact hsolo.archivos
      · exact hsolo.archivos
    · intro f' t' hne
      rw [buscarTag_reducir_ne s₁ hne]
      exact hsolo.buscar f' t' hne
    · intro f' t' nombre hne
      rw [← hsolo.enlaces f' t' nombre hne]
      unfold reducir
      split
      · rfl
      · exact Function.update_of_ne (rutaBlockLogico_ne hne _ _) ..
  · intro s₁ _ _ hsolo
    obtain ⟨mc, hmc⟩ := terminarTruncate_eq s₁ f t tamanio
    rw [hmc]
    refine ⟨hsolo.archivos, ?_, hsolo.enlaces⟩
    intro f' t' hne
    refine Eq.trans ?_ (hsolo.buscar f' t' hne)
    exact buscarTag_modificarTag_ne s₁ (nameTag_fijarTamanio tamanio) hne

theorem SoloTag.contenidoDe_eq (h : SoloTag f t s s') {f' t' : String}
    (hne : rutaTag f' t' ≠ rutaTag f t) (n : ℕ) :
    contenidoDe s' f' t' n = contenidoDe s f' t' n := by
  unfold contenidoDe enlaceDe
  rw [h.archivos, h.buscar f' t' hne]
  congr 2
  funext bl
  exact h.enlaces f' t' bl.nombreBlock hne

variable {tag : Tag} {tamanio : ℤ} {i : ℕ} {bl : BlockLogico}

theorem enlaceDe_eq (htag : buscarTag s f t = some tag)
    (hbl : tag.listaBlockLogicos[i]? = some bl) :
    enlaceDe s f t i = s.disco.links (rutaBlockLogico f t bl.nombreBlock) := by
  rw [enlaceDe, htag, Option.bind_some, hbl, Option.bind_some]

/-- The names of the blocks the shrink loop takes off the list. -/
def soltados (sb : Superbloque) (tag : Tag) (tamanio : ℤ) : List String :=
  (tag.listaBlockLogicos.drop
    (tag.listaBlockLogicos.length - bloquesQueLibera sb tag tamanio)).map BlockLogico.nombreBlock

theorem enlaceDe_achicado (htag : buscarTag s f t = some tag)
    (hbl : tag.listaBlockLogicos[i]? = some bl) :
    enlaceDe (terminarTruncate (reducirVeces s f t (bloquesQueLibera sb tag tamanio)) f t
        tamanio) f t i =
      if bl.nombreBlock ∈ soltados sb tag tamanio then none else enlaceDe s f t i := by
  set k := bloquesQueLibera sb tag tamanio with hk
  have hlista := listaFiles_comp (nameTag_quitarBloques k) (listaFiles_reducirVeces s f t k)
    (listaFiles_terminarTruncate (reducirVeces s f t k) f t tamanio)
  have htag' : buscarTag (terminarTruncate (reducirVeces s f t k) f t tamanio) f t =
      some (fijarTamanio tamanio (quitarBloques k tag)) := by
    rw [buscarTag_congr hlista, buscarTag_modificarTag_self s
      (g := fijarTamanio tamanio ∘ quitarBloques k) fun _ => rfl, htag]
    rfl
  obtain ⟨mc, hmc⟩ := terminarTruncate_eq (reducirVeces s f t k) f t tamanio
  have hlinks : (terminarTruncate (reducirVeces s f t k) f t tamanio).disco.links =
      (reducirVeces s f t k).disco.links := by
    rw [hmc]
    rfl
  have hquedan : (fijarTamanio tamanio (quitarBloques k tag)).listaBlockLogicos[i]? =
      if i < tag.listaBlockLogicos.length - k then some bl else none := by
    change (tag.listaBlockLogicos.take _)[i]? = _
    rw [List.getElem?_take, hbl]
  obtain ⟨hquita, hqueda⟩ := links_reducirVeces htag k (rutaBlockLogico f t bl.nombreBlock)
  by_cases hmem : bl.nombreBlock ∈ soltados sb tag tamanio
  · rw [if_pos hmem]
    obtain ⟨bl', hbl', hnombre⟩ := List.mem_map.mp hmem
    by_cases hi : i < tag.listaBlockLogicos.length - k
    · rw [if_pos hi] at hquedan
      rw [enlaceDe_eq htag' hquedan, hlinks]
      exact hquita ⟨bl', hbl', by rw [hnombre]⟩
    · rw [if_neg hi] at hquedan
      rw [enlaceDe, htag', Option.bind_some, hquedan]
      rfl
  · rw [if_neg hmem]
    have hi : i < tag.listaBlockLogicos.length - k := by
      by_contra hge
      refine hmem (List.mem_map.mpr ⟨bl, ?_, rfl⟩)
      refine List.mem_iff_getElem?.mpr ⟨i - (tag.listaBlockLogicos.length - k), ?_⟩
      rwa [← hk, List.getElem?_drop, Nat.add_sub_cancel' (not_lt.mp hge)]
    rw [if_pos hi] at hquedan
    rw [enlaceDe_eq htag' hquedan, enlaceDe_eq htag hbl, hlinks]
    apply hqueda
    rintro ⟨bl', hbl', heq⟩
    refine hmem (List.mem_map.mpr ⟨bl', hbl', ?_⟩)
    exact (congrArg (fun r : RutaBlock => r.2.2) heq).symm

/-- After a growth that is closed with the size. -/
theorem enlaceDe_agrandado (h : Coherente sb s) (ht : Truncable sb s f t tamanio tag)
    (hbl : tag.listaBlockLogicos[i]? = some bl) :
    if bl.nombreBlock ∈ nombresALinkear sb s f t (cantidadBloques sb tag.metadata.tamanioFile)
        (bloquesQueAgrega sb tag tamanio) then
      enlaceDe s f t i = none ∧
        (enlaceDe (terminarTruncate (agrandado sb s f t tag tamanio) f t tamanio) f t i).isSome
    else enlaceDe (terminarTruncate (agrandado sb s f t tag tamanio) f t tamanio) f t i =
      enlaceDe s f t i := by
  obtain ⟨nombres, hlista, -, -, -⟩ := agrandar_largo h ht.abierto
    (cantidadBloques sb tag.metadata.tamanioFile) (bloquesQueAgrega sb tag tamanio)
  have hlista' := listaFiles_comp (nameTag_agregarBloques nombres) hlista
    (listaFiles_terminarTruncate (agrandado sb s f t tag tamanio) f t tamanio)
  have htag' : buscarTag (terminarTruncate (agrandado sb s f t tag tamanio) f t tamanio) f t =
      some (fijarTamanio tamanio (agregarBloques nombres tag)) := by
    rw [buscarTag_congr hlista', buscarTag_modificarTag_self s
      (g := fijarTamanio tamanio ∘ agregarBloques nombres) fun _ => nameTag_agregarBloques ..,
      ht.existe]
    rfl
  have hlargo : i < tag.listaBlockLogicos.length := (List.getElem?_eq_some_iff.mp hbl).1
  have hsigue : (fijarTamanio tamanio (agregarBloques nombres tag)).listaBlockLogicos[i]? =
      some bl := by
    change (agregarBloques nombres tag).listaBlockLogicos[i]? = some bl
    rw [listaBlockLogicos_agregarBloques, List.getElem?_append_left hlargo, hbl]
  obtain ⟨mc, hmc⟩ := terminarTruncate_eq (agrandado sb s f t tag tamanio) f t tamanio
  have hlinks : (terminarTruncate (agrandado sb s f t tag tamanio) f t tamanio).disco.links =
      (agrandado sb s f t tag tamanio).disco.links := by
    rw [hmc]
    rfl
  rw [enlaceDe_eq htag' hsigue, enlaceDe_eq ht.existe hbl, hlinks]
  exact links_agrandar h.archivo_isSome_iff _ _ bl.nombreBlock

end Lecturas

section Truncate

/-- The blocks of the other Tags, and those that are in the list and fit in the new size,
are read as before. -/
structure RetieneDatos (sb : Superbloque) (s s' : Storage) (f t : String) (tamanio : ℤ) :
    Prop where
  ajenos : ∀ f' t', rutaTag f' t' ≠ rutaTag f t → ∀ i : ℤ,
    storageReadBlock sb s' f' t' i = storageReadBlock sb s f' t' i
  propios : ∀ tag, buscarTag s f t = some tag → ∀ i : ℕ, i < tag.listaBlockLogicos.length →
    i < cantidadBloques sb tamanio → storageReadBlock sb s' f t i = storageReadBlock sb s f t i

/-- A growth links no name that a listed block has, and a shrink takes no name off that a
listed block which can be read has. -/
def SinPerdida (sb : Superbloque) (s : Storage) (f t : String) (tamanio : ℤ) : Prop :=
  ∀ tag, buscarTag s f t = some tag → ∀ (i : ℕ) bl, tag.listaBlockLogicos[i]? = some bl →
    i < cantidadBloques sb tamanio →
      if cantidadBloques sb tag.metadata.tamanioFile < cantidadBloques sb tamanio then
        bl.nombreBlock ∉ nombresALinkear sb s f t (cantidadBloques sb tag.metadata.tamanioFile)
          (bloquesQueAgrega sb tag tamanio)
      else s.disco.links (rutaBlockLogico f t bl.nombreBlock) = none ∨
        bl.nombreBlock ∉ soltados sb tag tamanio

theorem truncable_of_cero {tamanio : ℤ}
    (hop : operacionTruncateFile sb s f t tamanio = .ok (s', 0)) :
    ∃ tag, Truncable sb s f t tamanio tag := by
  by_contra hno
  unfold operacionTruncateFile at hop
  cases htag : buscarTag s f t with
  | none =>
    rw [htag] at hop
    dsimp only at hop
    split_ifs at hop
    · simp at hop
    · simp at hop
  | some tag =>
    rw [htag] at hop
    dsimp only at hop
    split_ifs at hop with hmult hestado
    · simp at hop
    · simp at hop
    all_goals exact hno ⟨tag, not_not.mp hmult, htag, hestado⟩

theorem contenidoDe_eq_none_iff (h : Coherente sb s) (n : ℕ) :
    contenidoDe s f t n = none ↔ enlaceDe s f t n = none := by
  constructor
  · intro hnone
    by_contra hsome
    obtain ⟨b, hb⟩ := Option.ne_none_iff_exists'.mp hsome
    obtain ⟨bl, -, hlink⟩ := Option.bind_eq_some_iff.mp hb
    obtain ⟨c, -, hc, -⟩ := h.getContenido_of_link hlink
    rw [contenidoDe, hb, Option.bind_some, hc] at hnone
    exact absurd hnone (Option.some_ne_none c)
  · intro hnone
    rw [contenidoDe, hnone]
    rfl

theorem truncate_cero (hop : atenderWorker md5 sb s (.truncate f t tamanio) = .ok (s', .ok)) :
    operacionTruncateFile sb s f t tamanio = .ok (s', 0) := by
  unfold atenderWorker at hop
  cases hcod : operacionTruncateFile sb s f t tamanio with
  | error e => simp [hcod] at hop
  | ok r =>
    obtain ⟨s₁, c⟩ := r
    simp only [hcod, Except.ok.injEq, Prod.mk.injEq, respuestaDe] at hop
    obtain ⟨rfl, hresp⟩ := hop
    split_ifs at hresp with hcero
    rw [hcero]

theorem contenidoDe_achicado_iff (h : Coherente sb s) (htag : buscarTag s f t = some tag)
    (hop : s' = terminarTruncate (reducirVeces s f t (bloquesQueLibera sb tag tamanio)) f t
      tamanio) (harchivos : s'.disco.physicalBlocks = s.disco.physicalBlocks)
    (hbl : tag.listaBlockLogicos[i]? = some bl) :
    contenidoDe s' f t i = contenidoDe s f t i ↔
      s.disco.links (rutaBlockLogico f t bl.nombreBlock) = none ∨
        bl.nombreBlock ∉ soltados sb tag tamanio := by
  rw [← enlaceDe_eq htag hbl]
  have henlace : enlaceDe (terminarTruncate (reducirVeces s f t (bloquesQueLibera sb tag tamanio))
      f t tamanio) f t i =
        if bl.nombreBlock ∈ soltados sb tag tamanio then none else enlaceDe s f t i :=
    enlaceDe_achicado htag hbl
  rw [← hop] at henlace
  split_ifs at henlace with hmem
  · rw [contenidoDe, henlace, Option.bind_none, eq_comm, contenidoDe_eq_none_iff h]
    simp [hmem]
  · rw [contenidoDe, henlace, harchivos]
    exact iff_of_true rfl (Or.inr hmem)

theorem contenidoDe_agrandado_iff (h : Coherente sb s) (h' : Coherente sb s')
    (ht : Truncable sb s f t tamanio tag)
    (hop : s' = terminarTruncate (agrandado sb s f t tag tamanio) f t tamanio)
    (harchivos : s'.disco.physicalBlocks = s.disco.physicalBlocks)
    (hbl : tag.listaBlockLogicos[i]? = some bl) :
    contenidoDe s' f t i = contenidoDe s f t i ↔
      bl.nombreBlock ∉ nombresALinkear sb s f t (cantidadBloques sb tag.metadata.tamanioFile)
        (bloquesQueAgrega sb tag tamanio) := by
  have henlace := enlaceDe_agrandado h ht hbl
  rw [← hop] at henlace
  split_ifs at henlace with hmem
  · refine iff_of_false ?_ (not_not.mpr hmem)
    rw [(contenidoDe_eq_none_iff h i).mpr henlace.1, contenidoDe_eq_none_iff h']
    exact Option.ne_none_iff_isSome.mpr henlace.2
  · rw [contenidoDe, henlace, harchivos]
    exact iff_of_true rfl hmem

/-- Where plain requests have led, a TRUNCATE that answers OK keeps what it retains just
when its loop does not meet the name of a retained block. -/
theorem retieneDatos_iff {raiz : Bytes} (h : AlcanzableLlano raiz md5 sb s)
    (hop : atenderWorker md5 sb s (.truncate f t tamanio) = .ok (s', .ok)) :
    RetieneDatos sb s s' f t tamanio ↔ SinPerdida sb s f t tamanio := by
  have hcoh := coherente_alcanzable h.alcanzable
  have hcero := truncate_cero hop
  obtain ⟨hcoh', hsolo⟩ := soloTag_truncate hcoh hcero
  obtain ⟨tag, ht⟩ := truncable_of_cero hcero
  have hlectura : ∀ i : ℕ, storageReadBlock sb s' f t i = storageReadBlock sb s f t i ↔
      contenidoDe s' f t i = contenidoDe s f t i :=
    fun i => storageReadBlock_natCast_eq_iff (fun _ _ hc => hcoh'.length_of_getContenido hc)
      (fun _ _ hc => hcoh.length_of_getContenido hc) f t f t i
  have hpropios : ∀ (i : ℕ) bl, tag.listaBlockLogicos[i]? = some bl →
      (contenidoDe s' f t i = contenidoDe s f t i ↔
        if cantidadBloques sb tag.metadata.tamanioFile < cantidadBloques sb tamanio then
          bl.nombreBlock ∉ nombresALinkear sb s f t
            (cantidadBloques sb tag.metadata.tamanioFile) (bloquesQueAgrega sb tag tamanio)
        else s.disco.links (rutaBlockLogico f t bl.nombreBlock) = none ∨
          bl.nombreBlock ∉ soltados sb tag tamanio) := by
    intro i bl hbl
    split_ifs with hlt
    · rw [truncate_agranda_eq ht hlt] at hcero
      split_ifs at hcero
      · have hop' := (Prod.mk.inj (Except.ok.inj hcero)).1.symm
        exact contenidoDe_agrandado_iff hcoh hcoh' ht hop' hsolo.archivos hbl
      · simp at hcero
    · rw [truncate_achica hcoh ht (not_lt.mp hlt)] at hcero
      have hop' := (Prod.mk.inj (Except.ok.inj hcero)).1.symm
      exact contenidoDe_achicado_iff hcoh ht.existe hop' hsolo.archivos hbl
  constructor
  · intro hretiene tag' htag' i bl hbl hi
    obtain rfl := Option.some.inj (ht.existe.symm.trans htag')
    have hlargo := (List.getElem?_eq_some_iff.mp hbl).1
    exact (hpropios i bl hbl).mp ((hlectura i).mp (hretiene.propios _ htag' i hlargo hi))
  · intro hsin
    refine ⟨fun f' t' hne => ?_, ?_⟩
    · exact (storageReadBlock_eq_iff hcoh' hcoh f' t' f' t').mpr (hsolo.contenidoDe_eq hne)
    · intro tag' htag' i hlargo hi
      obtain rfl := Option.some.inj (ht.existe.symm.trans htag')
      have hbl := List.getElem?_eq_getElem hlargo
      exact (hlectura i).mpr ((hpropios i _ hbl).mpr (hsin _ htag' i _ hbl hi))

end Truncate

section Ejemplos

/-- Twelve bytes where three blocks of two are free: the size is six blocks, and the list
has three. -/
def estadoLargo : Storage :=
  estadoTras hashLegible superbloqueChico [.create "a" "b", .truncate "a" "b" 12]

theorem alcanzable_estadoLargo :
    AlcanzableLlano raizChica hashLegible superbloqueChico estadoLargo :=
  ⟨[Solicitud.create "a" "b", .truncate "a" "b" 12].attachWith (Llana raizChica)
    (by decide), rfl⟩

theorem truncate_cuatro :
    atenderWorker hashLegible superbloqueChico estadoLargo (.truncate "a" "b" 4) =
      .ok (terminarTruncate (reducirVeces estadoLargo "a" "b" 4) "a" "b" 4, .ok) := rfl

theorem retieneDatos_iff_cuatro :
    RetieneDatos superbloqueChico estadoLargo
        (terminarTruncate (reducirVeces estadoLargo "a" "b" 4) "a" "b" 4) "a" "b" 4 ↔
      SinPerdida superbloqueChico estadoLargo "a" "b" 4 :=
  retieneDatos_iff alcanzable_estadoLargo truncate_cuatro

/-- Four blocks are taken off a list of three, although two fit in the new size. -/
theorem not_retieneDatos : ¬ ∀ md5 sb s s' f t tamanio, Alcanzable md5 sb s →
    atenderWorker md5 sb s (.truncate f t tamanio) = .ok (s', .ok) →
    RetieneDatos sb s s' f t tamanio := by
  intro h
  have hretiene := h _ _ _ _ _ _ _ alcanzable_estadoLargo.alcanzable truncate_cuatro
  have htag : ∃ tag, buscarTag estadoLargo "a" "b" = some tag ∧
      0 < tag.listaBlockLogicos.length := ⟨_, rfl, by decide⟩
  obtain ⟨tag, htag, hlargo⟩ := htag
  have hlee := hretiene.propios tag htag 0 hlargo (by decide)
  exact absurd hlee (by decide)

end Ejemplos

end MasterOfFiles.RetainedBlocks
