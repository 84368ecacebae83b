import MasterOfFiles.ReachableStates
import MasterOfFiles.TruncateOutcomes

/-!
The size of a Tag against its list of logical blocks. Only TRUNCATE changes
either. Growing, it may skip names it cannot link or run out of bits after some
links, and it takes a negative size for a large one; the size and the list then
part for good.
-/
namespace MasterOfFiles.SizeAgreement

open KeyedLists BlockNames StorageState StorageFiles StorageOperations PartialRuns
open TagLookups BlockZero TruncateEffects TruncateOutcomes RequestEffects ReachableStates

variable {md5 : ByteBuffers.Bytes → String} {sb : Superbloque} {s s' : Storage} {f t : String}

/-- The size is that of the blocks, and each block has the name of its place. -/
structure TamanioAcorde (sb : Superbloque) (tag : Tag) : Prop where
  tamanio : tag.metadata.tamanioFile = sb.blockSize * tag.listaBlockLogicos.length
  no_negativo : 0 ≤ tag.metadata.tamanioFile
  nombres : ∀ i bl, tag.listaBlockLogicos[i]? = some bl →
    bl.nombreBlock = crearNombreBloqueLogico (i : ℕ)

def SizesAgree (sb : Superbloque) (s : Storage) : Prop :=
  TodoTag (fun _ tag => TamanioAcorde sb tag) s

section Cantidades

theorem cantidadBloques_mul {n : ℕ} (h : sb.blockSize * n < 2 ^ 31) :
    cantidadBloques sb (sb.blockSize * n) = n := by
  have hle : n ≤ sb.blockSize * n := Nat.le_mul_of_pos_left n sb.block_pos
  have huint : toUint32 (sb.blockSize * n) = sb.blockSize * n := by
    unfold toUint32
    rw [← Nat.cast_mul, Int.emod_eq_of_lt (by omega) (by omega), Int.toNat_natCast]
  unfold cantidadBloques
  rw [huint, Nat.mul_div_cancel_left _ sb.block_pos, toInt32, if_pos (by omega)]

/-- An accepted size that is not negative is that of a number of blocks. -/
theorem exists_cantidadBloques {tamanio : ℤ} (hpos : 0 ≤ tamanio) (hint : tamanio < 2 ^ 31)
    (hmul : toUint32 tamanio % sb.blockSize = 0) :
    ∃ q : ℕ, tamanio = sb.blockSize * q ∧ cantidadBloques sb tamanio = q := by
  have huint : (toUint32 tamanio : ℤ) = tamanio := by
    unfold toUint32
    rw [Int.emod_eq_of_lt hpos (by omega), Int.toNat_of_nonneg hpos]
  obtain ⟨q, hq⟩ := Nat.dvd_of_mod_eq_zero hmul
  have htamanio : tamanio = sb.blockSize * q := by
    rw [← huint, hq, Nat.cast_mul]
  refine ⟨q, htamanio, ?_⟩
  rw [htamanio]
  refine cantidadBloques_mul ?_
  rw [htamanio, ← Nat.cast_mul] at hint
  omega

end Cantidades

section Entradas

theorem TamanioAcorde.quitarBloques {tag : Tag} (h : TamanioAcorde sb tag) {n q : ℕ}
    (hn : tag.listaBlockLogicos.length - n = q) (hq : q ≤ tag.listaBlockLogicos.length) :
    TamanioAcorde sb (fijarTamanio (sb.blockSize * q) (quitarBloques n tag)) where
  tamanio := by
    simp only [fijarTamanio, TruncateOutcomes.quitarBloques, List.length_take, hn]
    rw [min_eq_left hq]
  no_negativo := by
    change (0 : ℤ) ≤ sb.blockSize * q
    positivity
  nombres := by
    intro i bl hbl
    change (tag.listaBlockLogicos.take (tag.listaBlockLogicos.length - n))[i]? = some bl at hbl
    rw [List.getElem?_take] at hbl
    split_ifs at hbl
    exact h.nombres i bl hbl

theorem TamanioAcorde.agregarBloques {tag : Tag} (h : TamanioAcorde sb tag) (m : ℕ) :
    TamanioAcorde sb (fijarTamanio (sb.blockSize * (tag.listaBlockLogicos.length + m : ℕ))
      (agregarBloques ((List.range' tag.listaBlockLogicos.length m).map fun i : ℕ =>
        crearNombreBloqueLogico i) tag)) where
  tamanio := by simp [fijarTamanio]
  no_negativo := by
    change (0 : ℤ) ≤ sb.blockSize * (tag.listaBlockLogicos.length + m : ℕ)
    positivity
  nombres := by
    intro i bl hbl
    simp only [fijarTamanio, listaBlockLogicos_agregarBloques, List.getElem?_append,
      List.map_map, List.getElem?_map] at hbl
    split_ifs at hbl with hi
    · exact h.nombres i bl hbl
    · obtain ⟨j, hj, rfl⟩ := Option.map_eq_some_iff.mp hbl
      obtain ⟨hlength, hget⟩ := List.getElem?_eq_some_iff.mp hj
      rw [List.getElem_range'] at hget
      have hj' : j = i := by omega
      rw [hj']
      rfl

end Entradas

section Corrida

/-- The sizes of TRUNCATE are ints. -/
def EsInt : Solicitud → Prop
  | .truncate _ _ tamanio => -2 ^ 31 ≤ tamanio ∧ tamanio < 2 ^ 31
  | _ => True

/-- TRUNCATE is not asked for a negative size, and where it grows a Tag either no
bit is free or every new block can be linked. -/
def TruncateEntero (sb : Superbloque) (s : Storage) : Solicitud → Prop
  | .truncate f t tamanio => ∀ tag, Truncable sb s f t tamanio tag →
      if cantidadBloques sb tag.metadata.tamanioFile < cantidadBloques sb tamanio then
        bitmapEncontrarBloqueLibre s.bitmap = none ∨ 0 ≤ tamanio ∧
          Amplia sb s f t (cantidadBloques sb tag.metadata.tamanioFile)
            (bloquesQueAgrega sb tag tamanio)
      else 0 ≤ tamanio
  | _ => True

theorem truncateEntero_iff {tamanio : ℤ} {tag : Tag} (ht : Truncable sb s f t tamanio tag) :
    TruncateEntero sb s (.truncate f t tamanio) ↔
      if cantidadBloques sb tag.metadata.tamanioFile < cantidadBloques sb tamanio then
        bitmapEncontrarBloqueLibre s.bitmap = none ∨ 0 ≤ tamanio ∧
          Amplia sb s f t (cantidadBloques sb tag.metadata.tamanioFile)
            (bloquesQueAgrega sb tag tamanio)
      else 0 ≤ tamanio := by
  constructor
  · exact fun h => h tag ht
  · intro h tag' ht'
    obtain rfl := ht.unico ht'
    exact h

/-- Sizes and lists agree after one entry changed just when they agree there. -/
theorem sizesAgree_iff (h : SizesAgree sb s) {tag : Tag} (htag : buscarTag s f t = some tag)
    {g : Tag → Tag} (hlista : s'.listaFiles = (modificarTag s f t g).listaFiles)
    (hg : ∀ tag, (g tag).nameTag = tag.nameTag) :
    SizesAgree sb s' ↔ TamanioAcorde sb (g tag) :=
  (todoTag_congr hlista).trans (h.modificarTag_iff hg htag)

theorem sizesAgree_achica_iff (hcoh : Coherente sb s) (h : SizesAgree sb s) {tamanio c : ℤ}
    {tag : Tag} (ht : Truncable sb s f t tamanio tag) (hint : tamanio < 2 ^ 31)
    (hactual : cantidadBloques sb tag.metadata.tamanioFile = tag.listaBlockLogicos.length)
    (hle : cantidadBloques sb tamanio ≤ cantidadBloques sb tag.metadata.tamanioFile)
    (hop : operacionTruncateFile sb s f t tamanio = .ok (s', c)) :
    SizesAgree sb s' ↔ TruncateEntero sb s (.truncate f t tamanio) := by
  rw [truncateEntero_iff ht, if_neg (not_lt.mpr hle)]
  rw [truncate_achica hcoh ht hle] at hop
  obtain ⟨rfl, -⟩ := Prod.mk.inj (Except.ok.inj hop)
  have hlista := listaFiles_comp (nameTag_quitarBloques _) (listaFiles_reducirVeces s f t _)
    (listaFiles_terminarTruncate (reducirVeces s f t (bloquesQueLibera sb tag tamanio)) f t tamanio)
  rw [sizesAgree_iff h ht.existe hlista fun _ => rfl]
  constructor
  · exact fun hacorde => hacorde.no_negativo
  · intro hpos
    obtain ⟨q, rfl, hq⟩ := exists_cantidadBloques hpos hint ht.multiplo
    have hlibera : tag.listaBlockLogicos.length -
        bloquesQueLibera sb tag (sb.blockSize * q) = q := by
      unfold bloquesQueLibera
      omega
    exact (h.of_buscarTag ht.existe).quitarBloques hlibera (by omega)

/-- A loop that stops for want of a bit leaves the old size. -/
theorem sizesAgree_agrandado_iff (hcoh : Coherente sb s) (h : SizesAgree sb s) {tamanio : ℤ}
    {tag : Tag} (ht : Truncable sb s f t tamanio tag)
    (hlt : cantidadBloques sb tag.metadata.tamanioFile < cantidadBloques sb tamanio)
    (hfin : (agrandar s f t (cantidadBloques sb tag.metadata.tamanioFile)
      (bloquesQueAgrega sb tag tamanio)).2 = false) :
    SizesAgree sb (agrandado sb s f t tag tamanio) ↔
      bitmapEncontrarBloqueLibre s.bitmap = none := by
  obtain ⟨nombres, hlista, -, -, hagotado⟩ := agrandar_largo hcoh ht.abierto
    (cantidadBloques sb tag.metadata.tamanioFile) (bloquesQueAgrega sb tag tamanio)
  constructor
  · intro hs'
    have htamanio := ((sizesAgree_iff h ht.existe hlista
      (nameTag_agregarBloques nombres)).mp hs').tamanio
    rw [tamanioFile_agregarBloques, listaBlockLogicos_agregarBloques,
      (h.of_buscarTag ht.existe).tamanio, ← Nat.cast_mul, ← Nat.cast_mul, Nat.cast_inj]
      at htamanio
    have hlength := Nat.eq_of_mul_eq_mul_left sb.block_pos htamanio
    rw [List.length_append, List.length_map] at hlength
    exact hagotado hfin (List.eq_nil_of_length_eq_zero (by omega))
  · intro hnone
    have hs : agrandado sb s f t tag tamanio = s := by
      unfold agrandado
      rw [agrandar_agotado hlt hnone]
    rw [hs]
    exact h

/-- A loop that runs to its end gets the size asked for. -/
theorem sizesAgree_terminado_iff (hcoh : Coherente sb s) (h : SizesAgree sb s) {tamanio : ℤ}
    {tag : Tag} (ht : Truncable sb s f t tamanio tag) (hint : tamanio < 2 ^ 31)
    (hactual : cantidadBloques sb tag.metadata.tamanioFile = tag.listaBlockLogicos.length)
    (hlt : cantidadBloques sb tag.metadata.tamanioFile < cantidadBloques sb tamanio) :
    SizesAgree sb (terminarTruncate (agrandado sb s f t tag tamanio) f t tamanio) ↔
      0 ≤ tamanio ∧ Amplia sb s f t (cantidadBloques sb tag.metadata.tamanioFile)
        (bloquesQueAgrega sb tag tamanio) := by
  obtain ⟨nombres, hlista, hlargo, htodos, -⟩ := agrandar_largo hcoh ht.abierto
    (cantidadBloques sb tag.metadata.tamanioFile) (bloquesQueAgrega sb tag tamanio)
  have hterminar := listaFiles_terminarTruncate (agrandado sb s f t tag tamanio) f t tamanio
  constructor
  · intro hs'
    have hs'' := (sizesAgree_iff h ht.existe
      (listaFiles_comp (nameTag_agregarBloques nombres) hlista hterminar)
      (nameTag_agregarBloques nombres)).mp hs'
    have hpos : 0 ≤ tamanio := hs''.no_negativo
    have htamanio : tamanio = sb.blockSize * (tag.listaBlockLogicos.length + nombres.length) := by
      have heq := hs''.tamanio
      simp only [Function.comp, fijarTamanio, listaBlockLogicos_agregarBloques,
        List.length_append, List.length_map, Nat.cast_add] at heq
      exact heq
    refine ⟨hpos, htodos ?_⟩
    obtain ⟨q, hq, hcantidad⟩ := exists_cantidadBloques hpos hint ht.multiplo
    rw [hq, ← Nat.cast_add, ← Nat.cast_mul, ← Nat.cast_mul, Nat.cast_inj] at htamanio
    have hlength := Nat.eq_of_mul_eq_mul_left sb.block_pos htamanio
    unfold bloquesQueAgrega
    omega
  · rintro ⟨hpos, ha⟩
    rw [hactual] at ha
    have hlista' := (agrandar_of_amplia hcoh ht.abierto ha).2
    rw [← hactual] at hlista'
    refine (sizesAgree_iff h ht.existe
      (listaFiles_comp (nameTag_agregarBloques _) hlista' hterminar)
      (nameTag_agregarBloques _)).mpr ?_
    obtain ⟨q, rfl, hcantidad⟩ := exists_cantidadBloques hpos hint ht.multiplo
    have hq : q = tag.listaBlockLogicos.length +
        bloquesQueAgrega sb tag (sb.blockSize * q) := by
      unfold bloquesQueAgrega
      omega
    have hfinal := (h.of_buscarTag ht.existe).agregarBloques
      (bloquesQueAgrega sb tag (sb.blockSize * q))
    rwa [← hq] at hfinal

theorem sizesAgree_agranda_iff (hcoh : Coherente sb s) (h : SizesAgree sb s) {tamanio c : ℤ}
    {tag : Tag} (ht : Truncable sb s f t tamanio tag) (hint : tamanio < 2 ^ 31)
    (hactual : cantidadBloques sb tag.metadata.tamanioFile = tag.listaBlockLogicos.length)
    (hlt : cantidadBloques sb tag.metadata.tamanioFile < cantidadBloques sb tamanio)
    (hop : operacionTruncateFile sb s f t tamanio = .ok (s', c)) :
    SizesAgree sb s' ↔ TruncateEntero sb s (.truncate f t tamanio) := by
  rw [truncateEntero_iff ht, if_pos hlt]
  rw [truncate_agranda_eq ht hlt] at hop
  cases hfin : (agrandar s f t (cantidadBloques sb tag.metadata.tamanioFile)
      (bloquesQueAgrega sb tag tamanio)).2 with
  | false =>
    rw [hfin] at hop
    obtain ⟨rfl, -⟩ := Prod.mk.inj (Except.ok.inj hop)
    refine (sizesAgree_agrandado_iff hcoh h ht hlt hfin).trans (or_iff_left ?_).symm
    rintro ⟨_, ha⟩
    rw [hactual] at ha hfin
    rw [(agrandar_of_amplia hcoh ht.abierto ha).1] at hfin
    exact absurd hfin (by simp)
  | true =>
    rw [hfin] at hop
    obtain ⟨rfl, -⟩ := Prod.mk.inj (Except.ok.inj hop)
    refine (sizesAgree_terminado_iff hcoh h ht hint hactual hlt).trans (or_iff_right ?_).symm
    intro hnone
    rw [agrandar_agotado hlt hnone] at hfin
    exact absurd hfin (by simp)

/-- Requests keep what they keep of one Tag entry. -/
theorem conserva_todoTag {P : Tag → Prop} {x : Solicitud} (hnuevo : ∀ t, P (tagNuevo t))
    (hcopia : ∀ t tag, P tag → P (copia t tag))
    (hcommitear : ∀ tag, P tag → P (commitear tag.listaBlockLogicos tag))
    (htruncate : ∀ f t tamanio, x = .truncate f t tamanio →
      (∀ nombre tag, P tag → P (agregarBloqueLogico nombre tag)) ∧
        (∀ tag, P tag → P (quitarUltimo tag)) ∧ ∀ tag, P tag → P (fijarTamanio tamanio tag)) :
    Conserva md5 sb (TodoTag fun _ tag => P tag) x where
  crear := by
    intro s f t mc _ _ hQ _
    have hcrear : TodoTag (fun _ tag => P tag) (cambiarDisco (crearFile s f)
        { s.disco with
          tagDirs := Function.update s.disco.tagDirs (rutaTag f t) true
          metadataConfig := mc }) := hQ.crearFile f
    exact hcrear.agregarTag (hnuevo t)
  ampliar := by
    intro s f t tamanio nro k heq _ hQ _ _
    exact hQ.modificarTag fun tag _ => (htruncate f t tamanio heq).1 _ tag
  reducir := by
    intro s f t tamanio heq _ hQ _
    refine (todoTag_congr (listaFiles_reducir s f t)).mpr ?_
    exact hQ.modificarTag fun tag _ => (htruncate f t tamanio heq).2.1 tag
  terminar := by
    intro s f t tamanio heq _ hQ _
    refine (todoTag_congr (listaFiles_terminarTruncate s f t tamanio)).mpr ?_
    exact hQ.modificarTag fun tag _ => (htruncate f t tamanio heq).2.2 tag
  copiar := by
    intro s fo tgo f t tag mc _ _ hQ htag
    have hasegurar : TodoTag (fun _ tag => P tag)
        (cambiarDisco (sumarAsociados (asegurarFile s f) 0 tag.listaBlockLogicos.length)
          { s.disco with
            tagDirs := Function.update s.disco.tagDirs (rutaTag f t) true
            links := enlazarCero s.disco.links (rutaTag f t)
              (tag.listaBlockLogicos.map BlockLogico.nombreBlock)
            metadataConfig := mc }) := hQ.asegurarFile f
    exact hasegurar.agregarTag (hcopia t tag (hQ.of_buscarTag htag))
  commitear := by
    intro s f t tag index guardado mc _ _ hQ htag _ _ _
    have hindice : TodoTag (fun _ tag => P tag) (cambiarIndice s index guardado) := hQ
    refine hindice.modificarTag fun tag' htag' hP => ?_
    obtain rfl := Option.some.inj (htag.symm.trans htag')
    exact hcommitear tag hP
  escribir := fun _ _ _ _ _ _ _ _ _ hQ _ => hQ
  eliminar := by
    intro s f t tag _ _ hQ _
    have hliberar : TodoTag (fun _ tag => P tag)
        (cambiarDisco (sumarAsociados s 0 (-tag.metadata.blocksFisicosUsados.length))
          (s.disco.eliminarCarpetaConContenido (rutaTag f t))) := hQ
    exact hliberar.quitarTag f t

theorem tamanioAcorde_nuevo (sb : Superbloque) (t : String) : TamanioAcorde sb (tagNuevo t) where
  tamanio := by simp [tagNuevo]
  no_negativo := le_refl 0
  nombres := fun i bl hbl => by simp [tagNuevo] at hbl

/-- The sizes a run of int requests leaves are ints. -/
theorem tamanioInt_paso {x : Solicitud} (hx : EsInt x) (h : Coherente sb s)
    (hint : TodoTag (fun _ tag => tag.metadata.tamanioFile < 2 ^ 31) s)
    (hop : paso md5 sb s x = .ok s') :
    TodoTag (fun _ tag => tag.metadata.tamanioFile < 2 ^ 31) s' := by
  have hc : Conserva md5 sb (TodoTag fun _ tag => tag.metadata.tamanioFile < 2 ^ 31) x := by
    refine conserva_todoTag ?_ (fun _ _ hP => hP) (fun _ hP => hP) ?_
    · intro t
      change (0 : ℤ) < 2 ^ 31
      norm_num
    · rintro f t tamanio rfl
      exact ⟨fun _ _ hP => hP, fun _ hP => hP, fun _ _ => hx.2⟩
  exact (hc.paso h hint hop).2

theorem sizesAgree_paso_iff {x : Solicitud} (hx : EsInt x) (hcoh : Coherente sb s)
    (hint : TodoTag (fun _ tag => tag.metadata.tamanioFile < 2 ^ 31) s) (h : SizesAgree sb s)
    (hop : paso md5 sb s x = .ok s') : SizesAgree sb s' ↔ TruncateEntero sb s x := by
  by_cases htruncate : ∃ f t tamanio, x = .truncate f t tamanio
  · obtain ⟨f, t, tamanio, rfl⟩ := htruncate
    obtain ⟨c, hop⟩ := paso_truncate hop
    by_cases ht : ∃ tag, Truncable sb s f t tamanio tag
    · obtain ⟨tag, ht⟩ := ht
      have hactual : cantidadBloques sb tag.metadata.tamanioFile =
          tag.listaBlockLogicos.length := by
        have hlt : tag.metadata.tamanioFile < 2 ^ 31 := hint.of_buscarTag ht.existe
        rw [(h.of_buscarTag ht.existe).tamanio] at hlt ⊢
        refine cantidadBloques_mul ?_
        rw [← Nat.cast_mul] at hlt
        omega
      rcases lt_or_ge (cantidadBloques sb tag.metadata.tamanioFile) (cantidadBloques sb tamanio)
        with hlt | hle
      · exact sizesAgree_agranda_iff hcoh h ht hx.2 hactual hlt hop
      · exact sizesAgree_achica_iff hcoh h ht hx.2 hactual hle hop
    · obtain ⟨c', hop'⟩ := truncate_rechazado fun tag htag => ht ⟨tag, htag⟩
      rw [hop] at hop'
      obtain ⟨rfl, -⟩ := Prod.mk.inj (Except.ok.inj hop')
      exact iff_of_true h fun tag htag => absurd ⟨tag, htag⟩ ht
  · have hc : Conserva md5 sb (SizesAgree sb) x := by
      refine conserva_todoTag (tamanioAcorde_nuevo sb) ?_ ?_ ?_
      · exact fun _ _ hP => ⟨hP.tamanio, hP.no_negativo, hP.nombres⟩
      · exact fun _ hP => ⟨hP.tamanio, hP.no_negativo, hP.nombres⟩
      · exact fun f t tamanio heq => absurd ⟨f, t, tamanio, heq⟩ htruncate
    refine iff_of_true (hc.paso hcoh h hop).2 ?_
    unfold TruncateEntero
    split
    · next f t tamanio => exact absurd ⟨f, t, tamanio, rfl⟩ htruncate
    · trivial

theorem todoTag_freshStart {P : String → Tag → Prop} (hP : P "initial_file" (tagInicial sb)) :
    TodoTag P (freshStart sb) := by
  obtain ⟨mc, hmc⟩ := freshStart_eq sb
  rw [hmc]
  intro file hfile tag htag
  obtain rfl := List.mem_singleton.mp hfile
  obtain rfl := List.mem_singleton.mp htag
  exact hP

theorem tamanioAcorde_inicial (sb : Superbloque) : TamanioAcorde sb (tagInicial sb) where
  tamanio := by simp [tagInicial]
  no_negativo := by
    change (0 : ℤ) ≤ sb.blockSize
    positivity
  nombres := by
    intro i bl hbl
    obtain ⟨hi, rfl⟩ := List.getElem?_eq_some_iff.mp hbl
    obtain rfl : i = 0 := by simpa [tagInicial] using hi
    change bloqueLogicoInicial = crearNombreBloqueLogico 0
    decide

/-- Sizes and lists agree all along a run just when no TRUNCATE of the run asks
for a negative size or for blocks of which only some, or none, can be linked. -/
theorem sizesAgree_alongRun_iff (md5 : ByteBuffers.Bytes → String) (sb : Superbloque)
    (xs : List Solicitud) (hxs : ∀ x ∈ xs, EsInt x) :
    AlongRun (paso md5 sb) (SizesAgree sb) (freshStart sb) xs ↔
      EachStep (paso md5 sb) (TruncateEntero sb) (freshStart sb) xs := by
  refine alongRun_iff_eachStep (I := fun s => Coherente sb s ∧
      TodoTag (fun _ tag => tag.metadata.tamanioFile < 2 ^ 31) s) (A := EsInt) ?_ ?_ ?_ ?_ xs hxs
  · exact fun s x s' hx hI hP hop => sizesAgree_paso_iff hx hI.1 hI.2 hP hop
  · exact fun s x s' hx hI _ _ hop =>
      ⟨coherente_paso hI.1 hop, tamanioInt_paso hx hI.1 hI.2 hop⟩
  · refine ⟨coherente_freshStart sb, todoTag_freshStart ?_⟩
    have hle := sb.block_le
    have hint := sb.int_range
    change (sb.blockSize : ℤ) < 2 ^ 31
    omega
  · exact todoTag_freshStart (tamanioAcorde_inicial sb)

theorem sizesAgree_alongRun_iff_dos :
    AlongRun (paso hashLegible superbloqueChico) (SizesAgree superbloqueChico)
        (freshStart superbloqueChico) [.create "a" "b", .truncate "a" "b" 2] ↔
      EachStep (paso hashLegible superbloqueChico) (TruncateEntero superbloqueChico)
        (freshStart superbloqueChico) [.create "a" "b", .truncate "a" "b" 2] :=
  sizesAgree_alongRun_iff hashLegible superbloqueChico [.create "a" "b", .truncate "a" "b" 2]
    (by simp [EsInt])

/-- Five blocks asked for where three exist: the bits past the last block keep
the loop going, and the Tag gets three blocks and the size of five. -/
theorem not_sizesAgree_truncate :
    ¬ ∀ md5 sb s, Alcanzable md5 sb s → SizesAgree sb s := by
  intro h
  have hagree := h hashLegible superbloqueChico _ (alcanzable_estadoTras hashLegible
    superbloqueChico [.create "a" "b", .truncate "a" "b" 10])
  have hresumen : (buscarTag (estadoTras hashLegible superbloqueChico
      [.create "a" "b", .truncate "a" "b" 10]) "a" "b").map (fun tag =>
        (tag.metadata.tamanioFile, tag.listaBlockLogicos.length)) = some (10, 3) := by decide
  obtain ⟨tag, htag, heq⟩ := Option.map_eq_some_iff.mp hresumen
  obtain ⟨htamanio, hlargo⟩ := Prod.mk.inj heq
  have hacorde := (hagree.of_buscarTag htag).tamanio
  rw [htamanio, hlargo] at hacorde
  exact absurd hacorde (by decide)

end Corrida

end MasterOfFiles.SizeAgreement
