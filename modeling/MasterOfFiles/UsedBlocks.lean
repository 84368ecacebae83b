import MasterOfFiles.CommitTargets
import MasterOfFiles.ConsistentImages
import MasterOfFiles.FailedRequests
import MasterOfFiles.RunTraces
import MasterOfFiles.StringLayouts

/-!
When the list BLOCKS of a Tag stays exact. Growth adds one fixed entry, a shrink
drops blocks without dropping entries, size 0 clears the list whatever is left, and
COMMIT changes associations and no entry, so each request has its own condition. The
entries are strings that TAG shares, so it also matters whose strings a request frees.
-/
namespace MasterOfFiles.UsedBlocks

open KeyedLists ByteBuffers ConfigText BlockNames StorageState StorageFiles StorageOperations
open PartialRuns TagLookups BlockZero TruncateEffects RequestEffects ReachableStates BlockTable
open TruncateOutcomes RetainedBlocks TruncateTurns CommitTargets ConsistentImages LinkAgreement
open FailedRequests WatchedRuns PlainNames SharedStrings StringLayouts

variable {md5 : Bytes → String} {sb : Superbloque} {s s' : Storage} {f t : String}
variable {tag : Tag} {bls : List BlockLogico}

section Truncate

theorem nodup_nombresALinkear (sb : Superbloque) (s : Storage) (f t : String) (nro : ℤ) (m : ℕ) :
    (nombresALinkear sb s f t nro m).Nodup := by
  have hinj : Function.Injective fun i : ℕ => crearNombreBloqueLogico (nro + i) := by
    intro i j h
    have hnro := crearNombreBloqueLogico_inj h
    omega
  unfold nombresALinkear
  split_ifs
  · exact (((List.nodup_map_iff hinj).mpr List.nodup_range).filter _).sublist
      (List.take_sublist ..)
  · exact List.nodup_nil

theorem delSuperbloque_cero (sb : Superbloque) : DelSuperbloque sb bloqueFisicoInicial :=
  ⟨0, cantBlock_pos sb, nombreBloqueFisico_zero.symm⟩

/-- What a TRUNCATE that is closed keeps of the blocks of a Tag. -/
theorem enlazado_fijarTamanio {d : Disco} (h : TagEnlazado sb d f t tag) (tamanio : ℤ) :
    TagEnlazado sb d f t (fijarTamanio tamanio tag) :=
  ⟨h.nombres, h.bloques, h.enlaces, h.carpeta⟩

theorem enlazado_agrandar (h : ImagenConsistente sb s) (htag : buscarTag s f t = some tag)
    (nro : ℤ) (m : ℕ) : TagEnlazado sb (agrandar s f t nro m).1.disco f t
      (agregarBloques (nombresALinkear sb s f t nro m) tag) := by
  have hsano := h.tags f t tag htag
  obtain ⟨_, _, hsolo⟩ := agrandar_efecto h.archivos (f := f) (t := t) nro m
  have hlinks := links_agrandar h.archivos (f := f) (t := t) nro m
  have hviejo : ∀ bl ∈ tag.listaBlockLogicos,
      bl.nombreBlock ∉ nombresALinkear sb s f t nro m := by
    intro bl hbl hnuevo
    have hlink := hlinks bl.nombreBlock
    rw [if_pos hnuevo] at hlink
    have hsome := hsano.enlaces bl hbl
    rw [hlink.1] at hsome
    exact absurd hsome (by decide)
  have hnombres : (agregarBloques (nombresALinkear sb s f t nro m) tag).listaBlockLogicos.map
      BlockLogico.nombreBlock =
        tag.listaBlockLogicos.map BlockLogico.nombreBlock ++ nombresALinkear sb s f t nro m := by
    rw [listaBlockLogicos_agregarBloques, List.map_append, List.map_map]
    congr 1
    exact List.map_id _
  constructor
  · rw [hnombres]
    refine hsano.nombres.append (nodup_nombresALinkear sb s f t nro m) ?_
    intro nombre hold hnew
    obtain ⟨bl, hbl, rfl⟩ := List.mem_map.mp hold
    exact hviejo bl hbl hnew
  · intro bl hbl
    rw [listaBlockLogicos_agregarBloques] at hbl
    rcases List.mem_append.mp hbl with hold | hnew
    · exact hsano.bloques bl hold
    · obtain ⟨nombre, _, rfl⟩ := List.mem_map.mp hnew
      exact delSuperbloque_cero sb
  · intro bl hbl
    rw [listaBlockLogicos_agregarBloques] at hbl
    have hlink := hlinks bl.nombreBlock
    rcases List.mem_append.mp hbl with hold | hnew
    · rw [if_neg (hviejo bl hold)] at hlink
      rw [hlink]
      exact hsano.enlaces bl hold
    · obtain ⟨nombre, hmem, rfl⟩ := List.mem_map.mp hnew
      rw [if_pos hmem] at hlink
      exact hlink.2
  · rw [hsolo.carpetas]
    exact hsano.carpeta

theorem repr_append_cero (ks : List ℕ) :
    ks.map Nat.repr ++ ["0"] = (ks ++ [0]).map Nat.repr := by
  rw [List.map_append]
  rfl

theorem cero_mem_iff (ks : List ℕ) : "0" ∈ ks.map Nat.repr ↔ 0 ∈ ks :=
  List.mem_map_of_injective (a := 0) repr_injective

/-- The entry growth adds is that of the block it associates the new blocks with. -/
theorem usadosDe_agregarBloques (h : UsadosDe tag.listaBlockLogicos
    tag.metadata.blocksFisicosUsados) (nombres : List String) :
    UsadosDe (agregarBloques nombres tag).listaBlockLogicos
      (agregarBloques nombres tag).metadata.blocksFisicosUsados := by
  have hmap : ∀ b, b ∈ (agregarBloques nombres tag).listaBlockLogicos.map
      BlockLogico.bloqueFisicoAsociado ↔
        b ∈ tag.listaBlockLogicos.map BlockLogico.bloqueFisicoAsociado ∨
          nombres ≠ [] ∧ b = bloqueFisicoInicial := by
    intro b
    rw [listaBlockLogicos_agregarBloques, List.map_append, List.mem_append, List.map_map]
    refine or_congr Iff.rfl ?_
    cases nombres with
    | nil => simp
    | cons nombre nombres =>
      simp only [List.mem_map, Function.comp_apply, ne_eq, reduceCtorEq, not_false_iff, true_and]
      constructor
      · rintro ⟨_, _, rfl⟩
        rfl
      · rintro rfl
        exact ⟨nombre, List.mem_cons_self .., rfl⟩
  obtain ⟨ks, hks, hnd, hiff⟩ := h
  rw [usados_agregarBloques, hks]
  split_ifs with hnil
  · refine ⟨ks, rfl, hnd, fun k => ?_⟩
    rw [hmap, hiff]
    simp [hnil]
  · unfold agregarUsado
    split_ifs with hmem
    · refine ⟨ks, rfl, hnd, fun k => ?_⟩
      rw [hmap, ← hiff, nombreBloqueFisico_eq_inicial_iff]
      constructor
      · exact Or.inl
      · rintro (hk | ⟨_, rfl⟩)
        · exact hk
        · exact (cero_mem_iff ks).mp hmem
    · refine ⟨ks ++ [0], repr_append_cero ks, ?_, fun k => ?_⟩
      · refine hnd.append (List.nodup_singleton 0) ?_
        intro k hk hk0
        obtain rfl := List.mem_singleton.mp hk0
        exact hmem ((cero_mem_iff ks).mpr hk)
      · rw [hmap, ← hiff, nombreBloqueFisico_eq_inicial_iff, List.mem_append,
          List.mem_singleton, and_iff_right hnil]

/-- The names a TRUNCATE that grows links. -/
def nuevos (sb : Superbloque) (s : Storage) (f t : String) (tag : Tag) (tamanio : ℤ) :
    List String :=
  nombresALinkear sb s f t (cantidadBloques sb tag.metadata.tamanioFile)
    (bloquesQueAgrega sb tag tamanio)

/-- Running out of bits leaves a first entry "0" in memory only; size 0 clears it. -/
structure CreceExacto (sb : Superbloque) (s : Storage) (f t : String) (tamanio : ℤ) (tag : Tag) :
    Prop where
  sin_bits : SinBits sb s f t (cantidadBloques sb tag.metadata.tamanioFile)
      (bloquesQueAgrega sb tag tamanio) →
    nuevos sb s f t tag tamanio = [] ∨ "0" ∈ tag.metadata.blocksFisicosUsados
  con_bits : ¬SinBits sb s f t (cantidadBloques sb tag.metadata.tamanioFile)
      (bloquesQueAgrega sb tag tamanio) →
    tamanio = 0 → tag.listaBlockLogicos = [] ∧ nuevos sb s f t tag tamanio = []

/-- The blocks that stay have the physical blocks of all, or none stay and the list
is cleared. -/
def AchicaExacto (sb : Superbloque) (tamanio : ℤ) (tag : Tag) : Prop :=
  let resto := (quitarBloques (bloquesQueLibera sb tag tamanio) tag).listaBlockLogicos
  if tamanio = 0 then resto = [] else MismosBloques resto tag.listaBlockLogicos

/-- The state the growth loop leaves. -/
structure Agrandado (sb : Superbloque) (s : Storage) (f t : String) (tag : Tag)
    (nombres : List String) (s' : Storage) : Prop where
  sanos : BloquesSanos sb s'
  ajenos : Ajenos f t s s'
  tag_eq : buscarTag s' f t = some (agregarBloques nombres tag)
  metadata : s'.disco.metadataConfig = s.disco.metadataConfig
  enlazado : TagEnlazado sb s'.disco f t (agregarBloques nombres tag)

theorem agrandado_efecto (h : ImagenConsistente sb s) (htag : buscarTag s f t = some tag)
    (tamanio : ℤ) :
    Agrandado sb s f t tag (nuevos sb s f t tag tamanio) (agrandado sb s f t tag tamanio) := by
  obtain ⟨hlista, hindice, hsolo⟩ := agrandar_efecto h.archivos (f := f) (t := t)
    (cantidadBloques sb tag.metadata.tamanioFile) (bloquesQueAgrega sb tag tamanio)
  refine ⟨?_, ?_, ?_, hsolo.metadata, enlazado_agrandar h htag _ _⟩
  · refine h.toBloquesSanos.of_soloEnlaces (tabla_agrandar s f t _ _) hsolo ?_
    unfold agrandado
    rw [hindice]
    exact h.indice
  · exact ajenos_of_soloEnlaces (nameTag_agregarBloques _) hlista hsolo
  · unfold agrandado
    rw [buscarTag_congr hlista, buscarTag_modificarTag_self s (nameTag_agregarBloques _), htag]
    rfl

/-- A growth that runs out of bits writes nothing to the metadata file. -/
theorem decide_sinBits (h : ImagenConsistente sb s) (htag : buscarTag s f t = some tag)
    {nombres : List String} (ha : Agrandado sb s f t tag nombres s') :
    Decide sb s' (nombres = [] ∨ "0" ∈ tag.metadata.blocksFisicosUsados) := by
  have hsano := h.tags f t tag htag
  constructor
  · intro hcond
    have husados : (agregarBloques nombres tag).metadata.blocksFisicosUsados =
        tag.metadata.blocksFisicosUsados := by
      rw [usados_agregarBloques]
      split_ifs with hnil
      · rfl
      · exact if_pos (hcond.resolve_left hnil)
    refine h.ajenos ha.sanos ha.ajenos fun tag' htag' => ?_
    obtain rfl := Option.some.inj (ha.tag_eq.symm.trans htag')
    refine ⟨ha.enlazado, usadosDe_agregarBloques hsano.usados nombres, ?_⟩
    rw [husados]
    exact hsano.guardado.congr (congrFun ha.metadata _)
  · intro hexactos
    have hdisco := (hexactos f t _ ha.tag_eq).2
    unfold EnDisco at hdisco
    rw [ha.metadata, show _ = some _ from hsano.guardado, Option.some.injEq,
      usados_agregarBloques] at hdisco
    split_ifs at hdisco with hnil
    · exact Or.inl hnil
    · refine Or.inr ?_
      rw [hdisco]
      unfold agregarUsado
      split_ifs with hmem
      · exact hmem
      · exact List.mem_append_right _ (List.mem_singleton.mpr rfl)

/-- A growth that goes through all its turns. -/
theorem decide_agrandado (h : ImagenConsistente sb s) (htag : buscarTag s f t = some tag)
    {nombres : List String} (ha : Agrandado sb s f t tag nombres s') (tamanio : ℤ) :
    Decide sb (terminarTruncate s' f t tamanio)
      (tamanio = 0 → tag.listaBlockLogicos = [] ∧ nombres = []) := by
  have hsano := h.tags f t tag htag
  have husados := usadosDe_agregarBloques hsano.usados nombres
  have hdec : EnDecimal
      (fijarTamanio tamanio (agregarBloques nombres tag)).metadata.blocksFisicosUsados := by
    unfold fijarTamanio
    dsimp only
    split_ifs
    · exact enDecimal_nil
    · exact husados.enDecimal ha.enlazado.bloques
  refine (decide_guardar h ha.sanos ha.ajenos (nameTag_fijarTamanio tamanio) ha.tag_eq
    (by rw [ha.metadata]; exact hsano.guardado.isSome)
    (enlazado_fijarTamanio ha.enlazado tamanio) hdec).congr ?_
  change UsadosDe (agregarBloques nombres tag).listaBlockLogicos
    (if tamanio = 0 then [] else (agregarBloques nombres tag).metadata.blocksFisicosUsados) ↔ _
  split_ifs with hcero
  · rw [usadosDe_nil_iff ha.enlazado.bloques, listaBlockLogicos_agregarBloques,
      List.append_eq_nil_iff, List.map_eq_nil_iff]
    exact ⟨fun hnil _ => hnil, fun hnil => hnil hcero⟩
  · exact iff_of_true husados fun hcero' => absurd hcero' hcero

theorem enlazado_quitarBloques {n : ℕ} (h : TagEnlazado sb s.disco f t tag)
    (hsolo : SoloEnlaces f t (ultimos n tag) s s') :
    TagEnlazado sb s'.disco f t (quitarBloques n tag) := by
  have hsub : ∀ bl ∈ (quitarBloques n tag).listaBlockLogicos, bl ∈ tag.listaBlockLogicos :=
    fun bl hbl => List.mem_of_mem_take hbl
  refine ⟨?_, fun bl hbl => h.bloques bl (hsub bl hbl), ?_, ?_⟩
  · exact h.nombres.sublist ((List.take_sublist ..).map _)
  · intro bl hbl
    rw [hsolo.enlaces]
    · exact h.enlaces bl (hsub bl hbl)
    · intro nombre hnombre heq
      have hname : bl.nombreBlock = nombre := congrArg (fun r : RutaBlock => r.2.2) heq
      have hqueda : nombre ∈ (tag.listaBlockLogicos.map BlockLogico.nombreBlock).take
          (tag.listaBlockLogicos.length - n) := by
        rw [← List.map_take]
        exact List.mem_map.mpr ⟨bl, hbl, hname⟩
      unfold ultimos at hnombre
      rw [List.map_drop] at hnombre
      exact List.disjoint_take_drop h.nombres (le_refl _) hqueda hnombre
  · rw [hsolo.carpetas]
    exact h.carpeta

/-- A TRUNCATE that shrinks, where it returns. -/
theorem decide_achicado (h : ImagenConsistente sb s) (htag : buscarTag s f t = some tag)
    {tamanio : ℤ} (hop : achicar s f t (bloquesQueLibera sb tag tamanio) = .ok s') :
    Decide sb (terminarTruncate s' f t tamanio) (AchicaExacto sb tamanio tag) := by
  have hsano := h.tags f t tag htag
  obtain ⟨hlista, hindice, hsolo⟩ := achicar_efecto htag hop
  have hsanos : BloquesSanos sb s' := by
    refine h.toBloquesSanos.of_soloEnlaces (tabla_achicar hop) hsolo ?_
    rw [hindice]
    exact h.indice
  have htag' : buscarTag s' f t = some (quitarBloques (bloquesQueLibera sb tag tamanio) tag) := by
    rw [buscarTag_congr hlista, buscarTag_modificarTag_self s (nameTag_quitarBloques _), htag]
    rfl
  have henlazado := enlazado_quitarBloques hsano.toTagEnlazado hsolo
  have hdec : EnDecimal (fijarTamanio tamanio
      (quitarBloques (bloquesQueLibera sb tag tamanio) tag)).metadata.blocksFisicosUsados := by
    unfold fijarTamanio
    dsimp only
    split_ifs
    · exact enDecimal_nil
    · exact hsano.usados.enDecimal hsano.bloques
  refine (decide_guardar h hsanos (ajenos_of_soloEnlaces (nameTag_quitarBloques _) hlista hsolo)
    (nameTag_fijarTamanio tamanio) htag'
    (by rw [hsolo.metadata]; exact hsano.guardado.isSome)
    (enlazado_fijarTamanio henlazado tamanio) hdec).congr ?_
  change UsadosDe (quitarBloques (bloquesQueLibera sb tag tamanio) tag).listaBlockLogicos
    (if tamanio = 0 then [] else tag.metadata.blocksFisicosUsados) ↔ _
  unfold AchicaExacto
  split_ifs with hcero
  · exact usadosDe_nil_iff henlazado.bloques
  · exact usadosDe_iff_mismos hsano.usados hsano.bloques henlazado.bloques

def TruncaExacto (sb : Superbloque) (s : Storage) (f t : String) (tamanio : ℤ) : Prop :=
  ∀ tag, Truncable sb s f t tamanio tag →
    if cantidadBloques sb tag.metadata.tamanioFile < cantidadBloques sb tamanio then
      CreceExacto sb s f t tamanio tag
    else AchicaExacto sb tamanio tag

theorem decide_truncate (h : ImagenConsistente sb s) {tamanio c : ℤ}
    (hop : operacionTruncateFile sb s f t tamanio = .ok (s', c)) :
    Decide sb s' (TruncaExacto sb s f t tamanio) := by
  by_cases ht : ∃ tag, Truncable sb s f t tamanio tag
  · obtain ⟨tag, ht⟩ := ht
    have hunico : TruncaExacto sb s f t tamanio ↔
        if cantidadBloques sb tag.metadata.tamanioFile < cantidadBloques sb tamanio then
          CreceExacto sb s f t tamanio tag
        else AchicaExacto sb tamanio tag := by
      constructor
      · exact fun hcond => hcond tag ht
      · intro hcond tag' ht'
        rwa [ht.unico ht']
    rw [hunico]
    split_ifs with hlt
    · have ha := agrandado_efecto h ht.existe tamanio
      have hfin := agrandar_eq_false_iff h.archivos (f := f) (t := t)
        (cantidadBloques sb tag.metadata.tamanioFile) (bloquesQueAgrega sb tag tamanio)
      rw [truncate_agranda_eq ht hlt] at hop
      split_ifs at hop with hflag
      · obtain ⟨rfl, rfl⟩ := Prod.mk.inj (Except.ok.inj hop)
        rw [hflag] at hfin
        have hcon := mt hfin.mpr (by decide)
        refine (decide_agrandado h ht.existe ha tamanio).congr ?_
        exact ⟨fun hcond => ⟨fun hsin => absurd hsin hcon, fun _ => hcond⟩,
          fun hcond => hcond.con_bits hcon⟩
      · obtain ⟨rfl, rfl⟩ := Prod.mk.inj (Except.ok.inj hop)
        have hsin := hfin.mp (Bool.not_eq_true _ ▸ hflag)
        refine (decide_sinBits h ht.existe ha).congr ?_
        exact ⟨fun hcond => ⟨fun _ => hcond, fun hcon => absurd hsin hcon⟩,
          fun hcond => hcond.sin_bits hsin⟩
    · unfold operacionTruncateFile at hop
      rw [if_neg (not_not.mpr ht.multiplo), ht.existe] at hop
      simp only [if_neg ht.wip, if_neg hlt] at hop
      split at hop
      · simp at hop
      · next s₁ hloop =>
        obtain ⟨rfl, rfl⟩ := Prod.mk.inj (Except.ok.inj hop)
        exact decide_achicado h ht.existe hloop
  · obtain ⟨c', hrechazado⟩ : ∃ c', operacionTruncateFile sb s f t tamanio = .ok (s, c') :=
      truncate_rechazado fun tag htag => ht ⟨tag, htag⟩
    rw [hrechazado] at hop
    obtain ⟨rfl, rfl⟩ := Prod.mk.inj (Except.ok.inj hop)
    exact Decide.of_imagen h fun tag htag => absurd ⟨tag, htag⟩ ht

end Truncate

section Commit

/-- The blocks COMMIT takes the Tag's to are those it has. -/
def CommitExacto (md5 : Bytes → String) (s : Storage) (f t : String) : Prop :=
  ∀ tag, buscarTag s f t = some tag → tag.metadata.estado ≠ .commited →
    MismosBloques (redirigir md5 s f t tag.listaBlockLogicos) tag.listaBlockLogicos

theorem delSuperbloque_destino (h : BloquesSanos sb s)
    (hbls : ∀ bl ∈ bls, DelSuperbloque sb bl.bloqueFisicoAsociado) {bl : BlockLogico}
    (hbl : bl ∈ bls) : DelSuperbloque sb (destino md5 s f t bls bl) := by
  unfold destino
  split
  · exact hbls bl hbl
  · next hash _ =>
    cases hget : configGet s.hashIndexConfig hash with
    | some b => exact h.indice _ (mem_of_configGet hget)
    | none =>
      rw [Option.none_or, primero]
      cases hfind : bls.find? fun bl => hashDe md5 s f t bl = some hash with
      | some bl' => exact hbls bl' (List.mem_of_find?_eq_some hfind)
      | none => exact hbls bl hbl

theorem decide_commit (h : ImagenConsistente sb s) {c : ℤ}
    (hop : operacionCommitTag md5 s f t = .ok (s', c)) :
    Decide sb s' (CommitExacto md5 s f t) := by
  obtain ⟨rfl, hcommited⟩ | ⟨tag, s₁, bls, htag, hestado, hbloques, rfl, _⟩ := commit_pasos hop
  · exact Decide.of_imagen h fun tag htag habierto => absurd (hcommited tag htag) habierto
  · have hsano := h.tags f t tag htag
    obtain ⟨rfl, hlista, hsolo, hind, henlazados⟩ := procesarBloques_efecto
      (fun p hp => h.archivo (h.indice p hp)) (fun bl hbl => h.archivo (hsano.bloques bl hbl))
      hsano.carpeta hsano.nombres hbloques
    have hsanos : BloquesSanos sb s₁ := by
      refine h.toBloquesSanos.of_soloEnlaces (tabla_procesarBloques hbloques) hsolo ?_
      intro p hp
      rcases hind p hp with hold | ⟨bl, hbl, heq⟩
      · exact h.indice p hold
      · exact heq ▸ hsano.bloques bl hbl
    have hajenos : Ajenos f t s s₁ := by
      refine ajenos_of_soloEnlaces (g := id) (fun _ => rfl) ?_ hsolo
      rw [hlista, modificarTag_eq_self (g := id) s fun _ _ => rfl]
    have henlazado : TagEnlazado sb s₁.disco f t
        (commitear (redirigir md5 s f t tag.listaBlockLogicos) tag) := by
      have hmem : ∀ bl ∈ redirigir md5 s f t tag.listaBlockLogicos,
          ∃ bl' ∈ tag.listaBlockLogicos, bl = { bl' with
            bloqueFisicoAsociado := destino md5 s f t tag.listaBlockLogicos bl' } := by
        intro bl hbl
        obtain ⟨bl', hbl', heq⟩ := List.mem_map.mp hbl
        exact ⟨bl', hbl', heq.symm⟩
      refine ⟨?_, ?_, ?_, ?_⟩
      · have hnombres : (redirigir md5 s f t tag.listaBlockLogicos).map BlockLogico.nombreBlock =
            tag.listaBlockLogicos.map BlockLogico.nombreBlock := by
          unfold redirigir
          rw [List.map_map]
          rfl
        exact hnombres ▸ hsano.nombres
      · intro bl hbl
        obtain ⟨bl', hbl', rfl⟩ := hmem bl hbl
        exact delSuperbloque_destino h.toBloquesSanos hsano.bloques hbl'
      · intro bl hbl
        obtain ⟨bl', hbl', rfl⟩ := hmem bl hbl
        exact henlazados bl' hbl'
      · rw [hsolo.carpetas]
        exact hsano.carpeta
    refine (decide_guardar h hsanos hajenos (nameTag_commitear _)
      ((buscarTag_congr hlista f t).trans htag)
      (by rw [hsolo.metadata]; exact hsano.guardado.isSome) henlazado
      (hsano.usados.enDecimal hsano.bloques)).congr ?_
    refine (usadosDe_iff_mismos hsano.usados hsano.bloques henlazado.bloques).trans ?_
    constructor
    · intro hmismos tag' htag' _
      obtain rfl := Option.some.inj (htag.symm.trans htag')
      exact hmismos
    · exact fun hcond => hcond tag htag hestado

end Commit

section CreateTag

/-- A Tag that is appended is seen where there was none of its name. -/
theorem buscarTag_agregarTag_ne (hfile : (buscarFile s f).isSome) (htag : tag.nameTag = t)
    {f' t' : String} (hne : rutaTag f' t' ≠ rutaTag f t) :
    buscarTag (agregarTag s f tag) f' t' = buscarTag s f' t' := by
  rw [buscarTag_agregarTag s hfile, if_neg, Option.or_none]
  rintro ⟨rfl, ht⟩
  exact hne (by rw [← htag, ht])

theorem imagen_create (h : ImagenConsistente sb s) (f t : String) :
    ImagenConsistente sb (operacionCreateFile s f t).1 := by
  by_cases hsome : (buscarTag s f t).isSome
  · rw [create_rechazado hsome]
    exact h
  · have hnone := Option.not_isSome_iff_eq_none.mp hsome
    have hfile := buscarFile_crearFile_self s f
    have hop : (operacionCreateFile s f t).1 = agregarTag (cambiarDisco (crearFile s f)
        (crearTag (s.disco.crearRutaTag (rutaTag f t)) t (rutaTag f t)).2) f (tagNuevo t) := by
      unfold operacionCreateFile
      rw [if_neg hsome]
      simp only [crearTag_fst]
      rfl
    rw [hop]
    refine h.ajenos (f := f) (t := t) ⟨h.tabla, h.archivos, h.indice⟩
      ⟨?_, fun _ _ => rfl, ?_, ?_⟩ ?_
    · intro f' t' hne
      exact (buscarTag_agregarTag_ne hfile rfl hne).trans (buscarTag_crearFile s f f' t')
    · exact fun rt hrt => Function.update_of_ne hrt ..
    · exact fun rt hrt => Function.update_of_ne hrt ..
    · intro tag htag
      have hnuevo : buscarTag (agregarTag (cambiarDisco (crearFile s f)
          (crearTag (s.disco.crearRutaTag (rutaTag f t)) t (rutaTag f t)).2) f (tagNuevo t)) f t =
            some (tagNuevo t) := by
        refine (buscarTag_agregarTag _ hfile f t).trans ?_
        rw [buscarTag_crearFile, hnone, if_pos ⟨rfl, rfl⟩, Option.none_or]
      obtain rfl := Option.some.inj (hnuevo.symm.trans htag)
      have hvacio : ∀ {P : BlockLogico → Prop}, ∀ bl ∈ (tagNuevo t).listaBlockLogicos, P bl :=
        fun bl hbl => absurd hbl List.not_mem_nil
      exact ⟨⟨List.nodup_nil, hvacio, hvacio, Function.update_self ..⟩,
        ⟨[], rfl, List.nodup_nil, fun _ => by simp [tagNuevo]⟩, enDisco_crearTag _ f t⟩

/-- Links made for a list of blocks, none of them lost. -/
structure Linkeado (f t : String) (bls : List BlockLogico) (s s' : Storage) : Prop where
  lista : s'.listaFiles = s.listaFiles
  indice : s'.hashIndexConfig = s.hashIndexConfig
  solo : SoloEnlaces f t (bls.map BlockLogico.nombreBlock) s s'
  quedan : ∀ r, (s.disco.links r).isSome → (s'.disco.links r).isSome
  hechos : ∀ bl ∈ bls, (s'.disco.links (rutaBlockLogico f t bl.nombreBlock)).isSome

/-- A name that is linked to a block with a file is there afterwards, and nothing else
changes. -/
theorem linkearBlABf_enlaces {n b : String} (hb : (s.disco.physicalBlocks b).isSome)
    (hdir : s.disco.tagDirs (rutaTag f t) = true) :
    ∃ links, linkearBlABf s.disco f t n b = some (cambiarEnlaces s.disco links) ∧
      (∀ r, r ≠ rutaBlockLogico f t n → links r = s.disco.links r) ∧
      (∀ r, (s.disco.links r).isSome → (links r).isSome) ∧
      (links (rutaBlockLogico f t n)).isSome := by
  unfold linkearBlABf Disco.link
  rw [if_neg (by simp [hdir, Option.isSome_iff_ne_none.mp hb])]
  by_cases hlink : (s.disco.links (rutaBlockLogico f t n)).isSome
  · rw [if_pos hlink]
    exact ⟨s.disco.links, rfl, fun _ _ => rfl, fun _ hr => hr, hlink⟩
  · rw [if_neg hlink]
    refine ⟨_, rfl, fun r hr => Function.update_of_ne hr .., fun r hr => ?_, ?_⟩
    · rcases eq_or_ne r (rutaBlockLogico f t n) with rfl | hne
      · exact absurd hr hlink
      · rwa [Function.update_of_ne hne]
    · rw [Function.update_self]
      rfl

theorem copiarBloque_linkeado {bl : BlockLogico}
    (hbl : (s.disco.physicalBlocks bl.bloqueFisicoAsociado).isSome)
    (hdir : s.disco.tagDirs (rutaTag f t) = true) (acc : List BlockLogico) :
    (copiarBloque f t (s, acc) bl).2 = acc ++ [bl] ∧
      Linkeado f t [bl] s (copiarBloque f t (s, acc) bl).1 := by
  obtain ⟨links, hlinkear, hotros, hquedan, hhecho⟩ :=
    linkearBlABf_enlaces (n := bl.nombreBlock) hbl hdir
  have hsolo : ∀ s' : Storage, s'.disco = cambiarEnlaces s.disco links →
      s'.listaFiles = s.listaFiles → s'.hashIndexConfig = s.hashIndexConfig →
      Linkeado f t [bl] s s' := by
    intro s' hdisco hlista hindice
    refine ⟨hlista, hindice, ⟨?_, ?_, ?_, fun r hr => ?_⟩, fun r hr => ?_, fun bl' hbl' => ?_⟩
    · rw [hdisco]
      rfl
    · rw [hdisco]
      rfl
    · rw [hdisco]
      rfl
    · rw [hdisco]
      exact hotros r (hr _ (List.mem_singleton.mpr rfl))
    · rw [hdisco]
      exact hquedan r hr
    · obtain rfl := List.mem_singleton.mp hbl'
      rw [hdisco]
      exact hhecho
  unfold copiarBloque
  simp only [hlinkear]
  split
  · exact ⟨trivial, hsolo _ rfl rfl rfl⟩
  · exact ⟨trivial, hsolo _ rfl rfl rfl⟩

/-- Where every block has a file, the copy has them all. -/
theorem copiarBloques_linkeado (hbls : ∀ bl ∈ bls,
      (s.disco.physicalBlocks bl.bloqueFisicoAsociado).isSome)
    (hdir : s.disco.tagDirs (rutaTag f t) = true) (acc : List BlockLogico) :
    (bls.foldl (copiarBloque f t) (s, acc)).2 = acc ++ bls ∧
      Linkeado f t bls s (bls.foldl (copiarBloque f t) (s, acc)).1 := by
  induction bls generalizing s acc with
  | nil =>
    exact ⟨(List.append_nil acc).symm, rfl, rfl, SoloEnlaces.refl f t s, fun _ hr => hr,
      fun _ hbl => absurd hbl List.not_mem_nil⟩
  | cons bl bls ih =>
    obtain ⟨hacc, huno⟩ := copiarBloque_linkeado (hbls bl (List.mem_cons_self ..)) hdir acc
    obtain ⟨hfin, hresto⟩ := ih (s := (copiarBloque f t (s, acc) bl).1)
      (by
        intro bl' hbl'
        rw [huno.solo.archivos]
        exact hbls bl' (List.mem_cons_of_mem _ hbl'))
      (by rw [huno.solo.carpetas, hdir]) (copiarBloque f t (s, acc) bl).2
    rw [List.foldl_cons]
    refine ⟨?_, hresto.lista.trans huno.lista, hresto.indice.trans huno.indice,
      huno.solo.trans hresto.solo, fun r hr => hresto.quedan r (huno.quedan r hr), ?_⟩
    · rw [hfin, hacc, List.append_assoc]
      rfl
    · intro bl' hbl'
      rcases List.mem_cons.mp hbl' with rfl | hbl'
      · exact hresto.quedan _ (huno.hechos bl' (List.mem_singleton.mpr rfl))
      · exact hresto.hechos bl' hbl'

/-- A Tag that a copy is put behind keeps its own list, over the same file. -/
def CopiaExacta (s : Storage) (fo tgo f t : String) : Prop :=
  ∀ origen, buscarTag s fo tgo = some origen → ∀ tag, buscarTag s f t = some tag →
    tag.metadata.blocksFisicosUsados = origen.metadata.blocksFisicosUsados

/-- The state a TAG leaves. -/
structure Copiado (sb : Superbloque) (s : Storage) (f t : String) (origen : Tag) (s' : Storage) :
    Prop where
  sanos : BloquesSanos sb s'
  ajenos : Ajenos f t s s'
  tag_eq : buscarTag s' f t = (buscarTag s f t).or (some (copia t origen))
  quedan : ∀ r, (s.disco.links r).isSome → (s'.disco.links r).isSome
  hechos : ∀ bl ∈ origen.listaBlockLogicos,
    (s'.disco.links (rutaBlockLogico f t bl.nombreBlock)).isSome
  carpeta : s'.disco.tagDirs (rutaTag f t) = true
  guardado : EnDisco s'.disco f t origen.metadata.blocksFisicosUsados

/-- The state in which TAG begins to link: the File and the directory are there. -/
def porCopiar (s : Storage) (f t : String) : Storage :=
  cambiarDisco (asegurarFile s f)
    (crearTag ((asegurarFile s f).disco.crearRutaTag (rutaTag f t)) t (rutaTag f t)).2

theorem porCopiar_eq (s : Storage) (f t : String) :
    porCopiar s f t = cambiarDisco { s with listaFiles := (asegurarFile s f).listaFiles }
      (crearTag (s.disco.crearRutaTag (rutaTag f t)) t (rutaTag f t)).2 := by
  unfold porCopiar
  rw [asegurarFile_eq]

theorem ajenos_porCopiar (s : Storage) (f t : String) : Ajenos f t s (porCopiar s f t) where
  buscar := fun f' t' _ => buscarTag_asegurarFile s f f' t'
  enlaces := by
    intro r _
    rw [porCopiar_eq]
    rfl
  carpetas := by
    intro rt hrt
    rw [porCopiar_eq]
    exact Function.update_of_ne hrt ..
  metadata := by
    intro rt hrt
    rw [porCopiar_eq]
    exact Function.update_of_ne hrt ..

theorem sanos_porCopiar (h : BloquesSanos sb s) (f t : String) :
    BloquesSanos sb (porCopiar s f t) := by
  rw [porCopiar_eq]
  exact ⟨h.tabla, h.archivos, h.indice⟩

/-- The state a TAG leaves, once its loop has copied every block. -/
theorem operacionTagFile_copiado {fo tgo : String} {origen : Tag} {s₁ : Storage}
    (horigen : buscarTag s fo tgo = some origen) (f t : String)
    (hloop : copiarBloques (porCopiar s f t) f t origen.listaBlockLogicos =
      (s₁, origen.listaBlockLogicos)) :
    (operacionTagFile s fo tgo f t).1 = agregarTag (cambiarDisco s₁
      (actualizarMetadata s₁.disco (rutaTag f t) (copia t origen).metadata)) f
        (copia t origen) := by
  have hregistrar : (operacionTagFile s fo tgo f t).1 = registrarCopia
      (copiarBloques (porCopiar s f t) f t origen.listaBlockLogicos).1 f origen (tagNuevo t)
        (copiarBloques (porCopiar s f t) f t origen.listaBlockLogicos).2 := by
    unfold operacionTagFile
    simp only [horigen, crearTag_fst]
    rfl
  rw [hregistrar, hloop]
  rfl

theorem tag_copiado (h : ImagenConsistente sb s) {fo tgo : String} {origen : Tag}
    (horigen : buscarTag s fo tgo = some origen) (f t : String) :
    Copiado sb s f t origen (operacionTagFile s fo tgo f t).1 := by
  have hsano := h.tags fo tgo origen horigen
  have hsanos := sanos_porCopiar h.toBloquesSanos f t
  have hcarpeta : (porCopiar s f t).disco.tagDirs (rutaTag f t) = true :=
    Function.update_self ..
  obtain ⟨hbloques, hlinkeado⟩ := copiarBloques_linkeado (s := porCopiar s f t)
    (fun bl hbl => hsanos.archivo (hsano.bloques bl hbl)) hcarpeta []
  have htabla := tabla_copiarBloques (porCopiar s f t) f t origen.listaBlockLogicos []
  set s₁ := (origen.listaBlockLogicos.foldl (copiarBloque f t) (porCopiar s f t, [])).1
  have hloop : copiarBloques (porCopiar s f t) f t origen.listaBlockLogicos =
      (s₁, origen.listaBlockLogicos) := Prod.ext rfl hbloques
  have hop := operacionTagFile_copiado horigen f t hloop
  have hfile : (buscarFile s₁ f).isSome := by
    unfold buscarFile
    rw [hlinkeado.lista]
    exact buscarFile_asegurarFile s f
  have hbuscar : ∀ f' t', buscarTag s₁ f' t' = buscarTag s f' t' := fun f' t' =>
    (buscarTag_congr hlinkeado.lista f' t').trans (buscarTag_asegurarFile s f f' t')
  have hlineas : (s₁.disco.metadataConfig (rutaTag f t)).isSome := by
    rw [hlinkeado.solo.metadata]
    exact (enDisco_crearTag _ f t).isSome
  obtain ⟨mc, hmc⟩ := actualizarMetadata_eq s₁.disco (rutaTag f t) (copia t origen).metadata
  rw [hop]
  refine ⟨?_, ?_, ?_, ?_, ?_, ?_, ?_⟩
  · rw [hmc]
    refine ⟨htabla.trans hsanos.tabla, hlinkeado.solo.archivosCompletos hsanos.archivos, ?_⟩
    have hindice := hsanos.indice
    rw [← hlinkeado.indice] at hindice
    exact hindice
  · refine (ajenos_porCopiar s f t).trans ⟨?_, ?_, ?_, ?_⟩
    · intro f' t' hne
      refine (buscarTag_agregarTag_ne hfile rfl hne).trans ?_
      exact (hbuscar f' t').trans (buscarTag_asegurarFile s f f' t').symm
    · intro r hr
      rw [hmc]
      exact hlinkeado.solo.enlaces_otro hr
    · intro rt _
      rw [hmc]
      exact congrFun hlinkeado.solo.carpetas rt
    · intro rt hrt
      exact (metadataConfig_actualizar_ne s₁.disco hrt _).trans
        (congrFun hlinkeado.solo.metadata rt)
  · refine (buscarTag_agregarTag _ hfile f t).trans ?_
    rw [hbuscar, if_pos ⟨rfl, rfl⟩]
  · intro r hr
    rw [hmc]
    refine hlinkeado.quedan r ?_
    rw [porCopiar_eq]
    exact hr
  · rw [hmc]
    exact hlinkeado.hechos
  · rw [hmc]
    exact (congrFun hlinkeado.solo.carpetas _).trans hcarpeta
  · exact enDisco_actualizar hlineas (hsano.usados.enDecimal hsano.bloques)

theorem decide_tag (h : ImagenConsistente sb s) (fo tgo f t : String) :
    Decide sb (operacionTagFile s fo tgo f t).1 (CopiaExacta s fo tgo f t) := by
  cases horigen : buscarTag s fo tgo with
  | none =>
    have hnada : (operacionTagFile s fo tgo f t).1 = s := by
      unfold operacionTagFile
      rw [horigen]
    rw [hnada]
    exact Decide.of_imagen h fun origen horigen' => by simp [horigen] at horigen'
  | some origen =>
    have hcopiado := tag_copiado h horigen f t
    have hsano := h.tags fo tgo origen horigen
    constructor
    · intro hexacta
      refine h.ajenos hcopiado.sanos hcopiado.ajenos fun tag htag => ?_
      rw [hcopiado.tag_eq] at htag
      cases hviejo : buscarTag s f t with
      | none =>
        rw [hviejo, Option.none_or] at htag
        obtain rfl := Option.some.inj htag
        exact ⟨⟨hsano.nombres, hsano.bloques, hcopiado.hechos, hcopiado.carpeta⟩, hsano.usados,
          hcopiado.guardado⟩
      | some tag' =>
        rw [hviejo, Option.some_or] at htag
        obtain rfl := Option.some.inj htag
        have hviejo' := h.tags f t tag' hviejo
        refine ⟨⟨hviejo'.nombres, hviejo'.bloques, ?_, hcopiado.carpeta⟩, hviejo'.usados, ?_⟩
        · exact fun bl hbl => hcopiado.quedan _ (hviejo'.enlaces bl hbl)
        · rw [hexacta origen horigen tag' hviejo]
          exact hcopiado.guardado
    · intro hexactos origen' horigen' tag htag
      obtain rfl := Option.some.inj (horigen.symm.trans horigen')
      have htag' : buscarTag (operacionTagFile s fo tgo f t).1 f t = some tag := by
        rw [hcopiado.tag_eq, htag, Option.some_or]
      have hdisco := (hexactos f t tag htag').2
      exact Option.some.inj (hdisco.symm.trans hcopiado.guardado)

end CreateTag

section WriteDelete

/-- Only contents, counts, bits and the index change. -/
structure SoloBloques (sb : Superbloque) (s s' : Storage) : Prop where
  lista : s'.listaFiles = s.listaFiles
  enlaces : s'.disco.links = s.disco.links
  carpetas : s'.disco.tagDirs = s.disco.tagDirs
  metadata : s'.disco.metadataConfig = s.disco.metadataConfig
  sanos : BloquesSanos sb s → BloquesSanos sb s'

theorem SoloBloques.trans {s'' : Storage} (h : SoloBloques sb s s') (h' : SoloBloques sb s' s'') :
    SoloBloques sb s s'' where
  lista := h'.lista.trans h.lista
  enlaces := h'.enlaces.trans h.enlaces
  carpetas := h'.carpetas.trans h.carpetas
  metadata := h'.metadata.trans h.metadata
  sanos := fun hs => h'.sanos (h.sanos hs)

theorem SoloBloques.imagen (h : SoloBloques sb s s') (hs : ImagenConsistente sb s) :
    ImagenConsistente sb s' where
  toBloquesSanos := h.sanos hs.toBloquesSanos
  tags := by
    intro f t tag htag
    rw [buscarTag_congr h.lista] at htag
    exact (hs.tags f t tag htag).congr (fun _ => congrFun h.enlaces _) (congrFun h.carpetas _)
      (congrFun h.metadata _)

theorem delSuperbloque_of_mem (h : TablaCompleta sb s) {bf : BlockFisico}
    (hbf : bf ∈ s.listaBloquesFisicos) : DelSuperbloque sb bf.pathBlock := by
  have hmem : bf.pathBlock ∈ tabla s := List.mem_map_of_mem hbf
  rw [h] at hmem
  obtain ⟨k, hk, hname⟩ := List.mem_map.mp hmem
  exact ⟨k, List.mem_range.mp hk, hname.symm⟩

theorem delSuperbloque_of_buscarIndex (h : TablaCompleta sb s) {b : String} {i : ℕ}
    (hi : buscarIndexBlockFisico s b = some i) : DelSuperbloque sb b := by
  obtain ⟨hlt, hname, _⟩ := List.findIdx?_eq_some_iff_getElem.mp hi
  rw [decide_eq_true_eq] at hname
  exact hname ▸ delSuperbloque_of_mem h (List.getElem_mem hlt)

/-- Writing a block file makes none and loses none. -/
theorem archivo_escribir_iff (h : ArchivosCompletos sb s) {b : String} (hb : DelSuperbloque sb b)
    (contenido : Bytes) (k : ℕ) :
    ((s.disco.escribirArchivoTruncado b contenido).physicalBlocks (nombreBloqueFisico k)).isSome ↔
      k < cantBlock sb := by
  change (Function.update s.disco.physicalBlocks b (some contenido) (nombreBloqueFisico k)).isSome ↔
    k < cantBlock sb
  rcases eq_or_ne (nombreBloqueFisico k) b with rfl | hne
  · rw [Function.update_self]
    exact iff_of_true rfl hb.lt
  · rw [Function.update_of_ne hne]
    exact h k

/-- The state after a block file is written and a hash goes out of the index. -/
theorem soloBloques_escrito (i : ℕ) (hash : String) {d : Disco} (henlaces : d.links = s.disco.links)
    (hcarpetas : d.tagDirs = s.disco.tagDirs)
    (hmetadata : d.metadataConfig = s.disco.metadataConfig) (harchivos : ArchivosCompletos sb s →
      ∀ k, (d.physicalBlocks (nombreBloqueFisico k)).isSome ↔ k < cantBlock sb) :
    SoloBloques sb s
      { s with
        listaBloquesFisicos := s.listaBloquesFisicos.modify i
          fun bf => { bf with contenido := d.physicalBlocks bf.pathBlock }
        hashIndexConfig := configRemoveKey s.hashIndexConfig hash
        disco := { d with blocksHashIndex := configRemoveKey s.hashIndexConfig hash } } := by
  refine ⟨rfl, henlaces, hcarpetas, hmetadata, fun hs => ⟨?_, harchivos hs.archivos, ?_⟩⟩
  · refine Eq.trans (map_pathBlock_modify ?_ _ _) hs.tabla
    exact fun _ => rfl
  · exact fun p hp => hs.indice p (List.mem_of_mem_filter hp)

theorem soloBloques_write (h : TablaCompleta sb s) (bl : BlockLogico) (contenido : Bytes) :
    SoloBloques sb s (operacionWriteBloque md5 sb s f t bl contenido).1 := by
  have hnada : SoloBloques sb s s := ⟨rfl, rfl, rfl, rfl, id⟩
  unfold operacionWriteBloque
  by_cases hnone : (buscarTag s f t).isNone
  · rw [if_pos hnone]
    exact hnada
  · rw [if_neg hnone]
    split
    · exact hnada
    · by_cases hcabe : sb.blockSize < contenido.length
      · rw [if_pos hcabe]
        exact hnada
      · rw [if_neg hcabe]
        split
        · exact hnada
        · next i _ =>
          dsimp only
          cases hbf : s.listaBloquesFisicos[i]? with
          | none => exact soloBloques_escrito i _ rfl rfl rfl id
          | some bf =>
            have hb := delSuperbloque_of_mem h (List.mem_of_getElem? hbf)
            exact soloBloques_escrito i _ rfl rfl rfl fun hs => archivo_escribir_iff hs hb _

theorem soloBloques_liberarUsado (h : TablaCompleta sb s) (e : String) :
    SoloBloques sb s (liberarUsado sb s e) := by
  unfold liberarUsado
  dsimp only
  split
  · exact ⟨rfl, rfl, rfl, rfl, id⟩
  · next i hi =>
    have hb := delSuperbloque_of_buscarIndex h hi
    have hsumar := tabla_sumarAsociados s i (-1)
    split_ifs
    · refine ⟨rfl, rfl, rfl, rfl, fun hs => ⟨hsumar.trans hs.tabla, ?_, hs.indice⟩⟩
      exact archivo_escribir_iff hs.archivos hb _
    · exact ⟨rfl, rfl, rfl, rfl, fun hs => ⟨hsumar.trans hs.tabla, hs.archivos, hs.indice⟩⟩

theorem soloBloques_liberarUsados (h : TablaCompleta sb s) (es : List String) :
    SoloBloques sb s (es.foldl (liberarUsado sb) s) := by
  induction es generalizing s with
  | nil => exact ⟨rfl, rfl, rfl, rfl, id⟩
  | cons e es ih =>
    exact (soloBloques_liberarUsado h e).trans (ih ((tabla_liberarUsado s e).trans h))

theorem imagen_write (h : ImagenConsistente sb s) (f t : String) (n : ℕ) (contenido : Bytes) :
    ImagenConsistente sb (storageWriteBlock md5 sb s f t n contenido).1 := by
  unfold storageWriteBlock
  split
  · exact h
  · split
    · exact h
    · next bl _ =>
      by_cases hcabe : sb.blockSize < contenido.length
      · rw [if_pos hcabe]
        exact h
      · rw [if_neg hcabe]
        exact (soloBloques_write h.tabla bl contenido).imagen h

/-- DELETE leaves nothing to be wrong about unless it exposes a second entry, whose
directory it has removed. -/
theorem decide_delete (h : ImagenConsistente sb s) (f t : String) :
    Decide sb (operacionEliminarTag sb s f t) (gemelo s f t = none) := by
  cases htag : buscarTag s f t with
  | none =>
    rw [delete_rechazado htag]
    exact Decide.of_imagen h (gemelo_of_none htag)
  | some tag =>
    have hsolo := soloBloques_liberarUsados h.tabla tag.metadata.blocksFisicosUsados.reverse
    set s₁ := tag.metadata.blocksFisicosUsados.reverse.foldl (liberarUsado sb) s
    have hop : operacionEliminarTag sb s f t = quitarTag
        (cambiarDisco s₁ (s₁.disco.eliminarCarpetaConContenido (rutaTag f t))) f t := by
      unfold operacionEliminarTag
      rw [htag]
      rfl
    have hself : buscarTag (operacionEliminarTag sb s f t) f t = gemelo s f t := by
      rw [hop, buscarTag_quitarTag_self]
      unfold gemelo buscarFile
      exact congrArg (fun files => (first File.nameFile f files).bind _) hsolo.lista
    have hs₁ := hsolo.imagen h
    rw [hop] at hself ⊢
    constructor
    · intro hnone
      refine hs₁.ajenos (f := f) (t := t) ⟨hs₁.tabla, hs₁.archivos, hs₁.indice⟩ ⟨?_, ?_, ?_, ?_⟩ ?_
      · exact fun f' t' hne => buscarTag_quitarTag_ne _ hne
      · exact fun r hr => if_neg hr
      · exact fun rt hrt => Function.update_of_ne hrt ..
      · exact fun rt hrt => Function.update_of_ne hrt ..
      · intro tag' htag'
        rw [hself, hnone] at htag'
        simp at htag'
    · intro hexactos
      by_contra hne
      obtain ⟨tag', htag'⟩ := Option.ne_none_iff_exists'.mp hne
      have hlineas := (hexactos f t tag' (hself.trans htag')).2.isSome
      change (Function.update s₁.disco.metadataConfig (rutaTag f t) none (rutaTag f t)).isSome
        at hlineas
      rw [Function.update_self] at hlineas
      exact absurd hlineas (by decide)

end WriteDelete

section Corrida

/-- When a request keeps BLOCKS exact. -/
def MantieneBlocks (md5 : Bytes → String) (sb : Superbloque) (s : Storage) : Solicitud → Prop
  | .truncate f t tamanio => TruncaExacto sb s f t tamanio
  | .tag fo tgo f t => CopiaExacta s fo tgo f t
  | .commit f t => CommitExacto md5 s f t
  | .delete f t => gemelo s f t = none
  | _ => True

theorem decide_paso (h : ImagenConsistente sb s) {x : Solicitud}
    (hop : paso md5 sb s x = .ok s') : Decide sb s' (MantieneBlocks md5 sb s x) := by
  cases x with
  | create f t =>
    rw [← Except.ok.inj hop]
    exact Decide.of_imagen (imagen_create h f t) trivial
  | truncate f t tamanio =>
    obtain ⟨c, hop⟩ := paso_truncate hop
    exact decide_truncate h hop
  | tag fo tgo f t =>
    rw [← Except.ok.inj hop]
    exact decide_tag h fo tgo f t
  | commit f t =>
    obtain ⟨c, hop⟩ := paso_commit hop
    exact decide_commit h hop
  | writeBlock f t n contenido =>
    rw [← Except.ok.inj hop]
    exact Decide.of_imagen (imagen_write h f t n contenido) trivial
  | readBlock f t n =>
    rw [← Except.ok.inj hop]
    exact Decide.of_imagen h trivial
  | flush f t =>
    rw [← Except.ok.inj hop]
    exact Decide.of_imagen h trivial
  | delete f t =>
    rw [← Except.ok.inj hop]
    exact decide_delete h f t

theorem enDisco_freshStart (sb : Superbloque) :
    EnDisco (freshStart sb).disco "initial_file" "BASE" ["0"] := by
  have hescrita : ∀ d : Disco, EnDisco (actualizarMetadata
      (linkearBlockInicial (crearTag d "BASE" (rutaTag "initial_file" "BASE")).2
        (rutaTag "initial_file" "BASE")) (rutaTag "initial_file" "BASE")
      (tagBase sb (crearTag d "BASE" (rutaTag "initial_file" "BASE")).1).metadata)
      "initial_file" "BASE" ["0"] := by
    intro d
    have hcero : (tagBase sb (crearTag d "BASE"
        (rutaTag "initial_file" "BASE")).1).metadata.blocksFisicosUsados = ["0"] := by
      rw [crearTag_fst]
      rfl
    have hlineas := (enDisco_crearTag d "initial_file" "BASE").isSome
    rw [← hcero]
    refine enDisco_actualizar ?_ ⟨[0], by decide, hcero⟩
    unfold linkearBlockInicial
    split
    · next d' hlink =>
      unfold Disco.link at hlink
      split_ifs at hlink
      rw [← Except.ok.inj hlink]
      exact hlineas
    · exact hlineas
  exact hescrita _

theorem imagen_freshStart (sb : Superbloque) : ImagenConsistente sb (freshStart sb) := by
  have hcoh := coherente_freshStart sb
  obtain ⟨mc, hmc⟩ := freshStart_eq sb
  refine ⟨⟨hcoh.nombres, hcoh.archivo_isSome_iff, fun p hp => absurd hp List.not_mem_nil⟩, ?_⟩
  intro f t tag htag
  have hlista : (freshStart sb).listaFiles = [⟨"initial_file", [tagInicial sb]⟩] := by rw [hmc]
  obtain ⟨file, hfile, rfl, hmem⟩ := mem_of_buscarTag htag
  have ht := nameTag_of_buscarTag htag
  rw [hlista] at hfile
  obtain rfl := List.mem_singleton.mp hfile
  obtain rfl := List.mem_singleton.mp hmem
  subst ht
  refine ⟨⟨?_, ?_, ?_, ?_⟩, ?_, enDisco_freshStart sb⟩
  · exact List.nodup_singleton _
  · intro bl hbl
    obtain rfl := List.mem_singleton.mp hbl
    exact delSuperbloque_cero sb
  · intro bl hbl
    obtain rfl := List.mem_singleton.mp hbl
    rw [hmc]
    rfl
  · rw [hmc]
    rfl
  · refine ⟨[0], rfl, List.nodup_singleton 0, fun k => ?_⟩
    rw [List.mem_singleton, ← nombreBloqueFisico_eq_inicial_iff]
    exact List.mem_singleton.symm

/-- BLOCKS can be read, and is exact. -/
structure BlocksLegibles (c : Vigilado) : Prop where
  known : c.known = true
  vivas : Vivas c.ghost
  exactos : BlocksExactos c.state

/-- When a request keeps BLOCKS exact and its strings there to be read. -/
structure MantieneLegibles (md5 : Bytes → String) (sb : Superbloque) (c : Vigilado)
    (x : Solicitud) : Prop where
  sinTocar : SinTocarLiberadas md5 sb c x
  propias : SueltaPropias sb c x
  bloques : MantieneBlocks md5 sb c.state x

/-- A consistent image with the arrays of its lists. -/
structure ImagenVigilada (sb : Superbloque) (c : Vigilado) : Prop where
  imagen : ImagenConsistente sb c.state
  forma : Forma c.state c.ghost
  acotadas : Acotadas c.ghost

theorem imagenVigilada_paso {c c' : Vigilado} {x : Solicitud} (h : ImagenVigilada sb c)
    (hc : c.known = true) (hx : MantieneLegibles md5 sb c x)
    (hop : pasoVigilado md5 sb c x = .ok c') : c'.known = true ∧ ImagenVigilada sb c' ∧
      (Vivas c.ghost → Vivas c'.ghost) := by
  cases hpaso : paso md5 sb c.state x with
  | error e => simp [watchedStep, hc, hpaso] at hop
  | ok s' =>
    obtain rfl := Except.ok.inj (hop.symm.trans
      (watchedStep_of_harmless hc hpaso (hx.sinTocar s' hpaso)))
    have hgemelo : ∀ f t, x = .delete f t → gemelo c.state f t = none := by
      rintro f t rfl
      exact hx.bloques
    have hsigue : Sigue c.ghost (nombrados x) (rastro sb c.ghost c.state x) :=
      sigue_rastro h.forma hgemelo
    refine ⟨rfl, ⟨?_, forma_paso h.forma hpaso, h.acotadas.soltar hsigue⟩, fun hvivas => ?_⟩
    · exact (decide_paso h.imagen hpaso).basta hx.bloques
    · exact (vivas_soltar_iff h.acotadas hvivas hsigue).mpr hx.propias

/-- BLOCKS stays readable and exact only by a request that keeps it so. -/
theorem mantieneLegibles_of_paso {c c' : Vigilado} {x : Solicitud} (h : ImagenVigilada sb c)
    (hc : BlocksLegibles c) (hc' : BlocksLegibles c') (hop : pasoVigilado md5 sb c x = .ok c') :
    MantieneLegibles md5 sb c x := by
  obtain ⟨-, hpaso, hharm, hghost⟩ := known_of_watchedStep hop hc'.known
  have hbloques := (decide_paso h.imagen hpaso).hace_falta hc'.exactos
  have hgemelo : ∀ f t, x = .delete f t → gemelo c.state f t = none := by
    rintro f t rfl
    exact hbloques
  constructor
  · intro s' hs'
    obtain rfl := Except.ok.inj (hs'.symm.trans hpaso)
    exact hharm
  · have hvivas := hc'.vivas
    rw [hghost] at hvivas
    exact (vivas_soltar_iff h.acotadas hc.vivas (sigue_rastro h.forma hgemelo)).mp hvivas
  · exact hbloques

/-- In a run of plain requests from a fresh start or a consistent image, BLOCKS can be read
and is exact in every state just when each request keeps it so. -/
theorem blocksExactos_alongRun_iff (md5 : Bytes → String) {s₀ : Storage} {p₀ : Punteros}
    (h : s₀ = freshStart sb ∨ ImagenConsistente sb s₀) (hp : Levantados s₀ p₀) {raiz : Bytes}
    (xs : List (Pedido raiz)) :
    AlongRun (pasoVigilado md5 sb) BlocksLegibles ⟨s₀, p₀, true⟩ xs.unattach ↔
      EachStep (pasoVigilado md5 sb) (MantieneLegibles md5 sb) ⟨s₀, p₀, true⟩ xs.unattach := by
  have himagen : ImagenConsistente sb s₀ := by
    rcases h with rfl | h
    · exact imagen_freshStart sb
    · exact h
  refine alongRun_iff_eachStep (I := ImagenVigilada sb) (A := fun _ => True) ?_ ?_
    ⟨himagen, hp.forma, hp.acotadas⟩ ⟨rfl, hp.vivas, blocksExactos_of_imagen himagen⟩ xs.unattach
    fun _ _ => trivial
  · intro c x c' _ hc hlegible hop
    constructor
    · exact fun hc' => mantieneLegibles_of_paso hc hlegible hc' hop
    · intro hx
      obtain ⟨hconocido, himagen', hvivas⟩ := imagenVigilada_paso hc hlegible.known hx hop
      exact ⟨hconocido, hvivas hlegible.vivas, blocksExactos_of_imagen himagen'.imagen⟩
  · intro c x c' _ hc hlegible hx hop
    exact (imagenVigilada_paso hc hlegible.known hx hop).2.1

def pedidosNueve : List (Pedido raizChica) :=
  [Solicitud.create "a" "b", .truncate "a" "b" 9].attachWith (Llana raizChica)
    (by decide)

theorem blocksExactos_alongRun_iff_nueve :
    AlongRun (pasoVigilado hashLegible superbloqueExacto) BlocksLegibles
        (inicio superbloqueExacto) pedidosNueve.unattach ↔
      EachStep (pasoVigilado hashLegible superbloqueExacto)
        (MantieneLegibles hashLegible superbloqueExacto) (inicio superbloqueExacto)
        pedidosNueve.unattach :=
  blocksExactos_alongRun_iff hashLegible (Or.inl rfl) (levantados_inicio superbloqueExacto) _

/-- The seven blocks linked before the bits run out are in memory only. -/
theorem not_blocksExactos : ¬ ∀ md5 sb s₀ s, s₀ = freshStart sb ∨ ImagenConsistente sb s₀ →
    Reaches (paso md5 sb) s₀ s → BlocksExactos s := by
  intro h
  have hexactos := h hashLegible superbloqueExacto _ _ (Or.inl rfl)
    (alcanzable_estadoTras hashLegible superbloqueExacto
      [.create "a" "b", .truncate "a" "b" 9])
  have hmemoria : (buscarTag (estadoTras hashLegible superbloqueExacto
      [.create "a" "b", .truncate "a" "b" 9]) "a" "b").map
        (fun tag => tag.metadata.blocksFisicosUsados) = some ["0"] := by decide
  obtain ⟨tag, htag, husados⟩ := Option.map_eq_some_iff.mp hmemoria
  have hdisco := (hexactos "a" "b" tag htag).2
  rw [husados] at hdisco
  have harchivo : ((estadoTras hashLegible superbloqueExacto
      [.create "a" "b", .truncate "a" "b" 9]).disco.metadataConfig (rutaTag "a" "b")).map
        (fun lineas => (crearMetadata lineas).blocksFisicosUsados) = some [] := by decide
  exact absurd (harchivo.symm.trans hdisco) (by decide)

end Corrida

end MasterOfFiles.UsedBlocks
