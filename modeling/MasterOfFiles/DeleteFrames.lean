import MasterOfFiles.BitmapExactness
import MasterOfFiles.BlockTable
import MasterOfFiles.HashIndex
import MasterOfFiles.NameUniqueness
import MasterOfFiles.PlainNames
import MasterOfFiles.ReferenceCounts
import MasterOfFiles.SharedStrings

/-!
What DELETE does to the blocks other Tags are linked to, from any state whose
table of blocks is the disk's. It takes one off a block's count for each entry
the Tag has for it, and frees the block when the count passes zero on the way,
whoever is linked to it. All this is of entries that have not been freed and of Tags
whose names rm takes as they are.
-/
namespace MasterOfFiles.DeleteFrames

open KeyedLists ByteBuffers ConfigText BlockNames StorageState StorageOperations
open PartialRuns TagLookups BlockZero ReachableStates BlockTable
open BitmapExactness LinkAgreement NameUniqueness ReferenceCounts WriteReadback HashIndex
open WatchedRuns PlainNames SharedStrings

variable {md5 : Bytes → String} {sb : Superbloque} {s s' : Storage} {f t : String}

section Liberar

/-- The block an entry of blocks_usados is for, if there is one. -/
def bloqueDe (sb : Superbloque) (entrada : String) : Option ℕ :=
  if 0 ≤ atoi entrada ∧ atoi entrada < cantBlock sb then some (atoi entrada).toNat else none

def conteo (s : Storage) (k : ℕ) : Option ℤ :=
  s.listaBloquesFisicos[k]?.map BlockFisico.blogicoAsociados

/-- What an entry for the block `k` does. -/
def soltarBloque (sb : Superbloque) (s : Storage) (k : ℕ) : Storage :=
  let s := sumarAsociados s k (-1)
  if conteo s k = some 0 ∧ k ≠ 0 then
    { s with
      bitmap := bitmapMarcarBloqueLibre s.bitmap k
      disco := s.disco.escribirArchivoTruncado (nombreBloqueFisico k)
        (List.replicate sb.blockSize 0) }
  else s

/-- Going through the entries `ks`, the count of the block becomes zero. -/
def Liberado (s : Storage) (ks : List ℕ) (k : ℕ) : Prop :=
  k ≠ 0 ∧ ∃ c, conteo s k = some c ∧ 1 ≤ c ∧ c ≤ ks.count k

theorem buscarIndex_vacio (h : TablaCompleta sb s) : buscarIndexBlockFisico s "" = none := by
  unfold buscarIndexBlockFisico
  refine List.findIdx?_eq_none_iff.mpr fun bf hbf => ?_
  have hmem : bf.pathBlock ∈ tabla s := List.mem_map_of_mem hbf
  rw [h] at hmem
  obtain ⟨j, _, hname⟩ := List.mem_map.mp hmem
  rw [decide_eq_false_iff_not, ← hname]
  intro hvacio
  have hlist := congrArg String.toList hvacio
  simp [nombreBloqueFisico] at hlist

theorem liberarUsado_eq (h : TablaCompleta sb s) (entrada : String) :
    liberarUsado sb s entrada =
      ((bloqueDe sb entrada).map (soltarBloque sb s)).getD s := by
  unfold liberarUsado bloqueDe nameBloque
  dsimp only
  split_ifs with hrango
  · obtain ⟨k, hk⟩ := Int.eq_ofNat_of_zero_le hrango.1
    have hlt : k < cantBlock sb := by omega
    have hint : cantBlock sb ≤ sb.fsSize := Nat.div_le_self _ _
    have huint : toUint32 k = k := by
      have hrange := sb.int_range
      unfold toUint32
      rw [Int.emod_eq_of_lt (by omega) (by omega), Int.toNat_natCast]
    rw [hk, Int.toNat_natCast, buscarIndex_of_tabla h hlt, huint]
    rfl
  · rw [buscarIndex_vacio h]
    rfl

theorem tabla_soltarBloque (s : Storage) (k : ℕ) : tabla (soltarBloque sb s k) = tabla s := by
  unfold soltarBloque
  dsimp only
  split_ifs
  · exact tabla_sumarAsociados s k _
  · exact tabla_sumarAsociados s k _

theorem liberarUsados_eq (h : TablaCompleta sb s) (es : List String) :
    es.foldl (liberarUsado sb) s = (es.filterMap (bloqueDe sb)).foldl (soltarBloque sb) s := by
  induction es generalizing s with
  | nil => rfl
  | cons e es ih =>
    rw [List.foldl_cons, liberarUsado_eq h]
    cases hbloque : bloqueDe sb e with
    | none =>
      rw [List.filterMap_cons_none hbloque]
      exact ih h
    | some k =>
      rw [List.filterMap_cons_some hbloque]
      exact ih ((tabla_soltarBloque s k).trans h)

theorem conteo_soltarBloque (s : Storage) (k j : ℕ) :
    conteo (soltarBloque sb s k) j = if j = k then (conteo s k).map (· - 1) else conteo s j := by
  have hsumar : conteo (sumarAsociados s k (-1)) j =
      if j = k then (conteo s k).map (· - 1) else conteo s j := by
    unfold conteo sumarAsociados
    rw [List.getElem?_modify]
    split_ifs with hkj hjk hjk
    · subst hkj
      cases s.listaBloquesFisicos[k]? with
      | none => rfl
      | some bf => rfl
    · exact absurd hkj.symm hjk
    · exact absurd hjk.symm hkj
    · cases s.listaBloquesFisicos[j]? with
      | none => rfl
      | some bf => rfl
  unfold soltarBloque
  dsimp only
  split_ifs at hsumar ⊢ <;> exact hsumar

theorem liberado_cons (sb : Superbloque) (k : ℕ) (ks : List ℕ) (j : ℕ) :
    Liberado s (k :: ks) j ↔
      (j = k ∧ k ≠ 0 ∧ conteo s k = some 1) ∨ Liberado (soltarBloque sb s k) ks j := by
  unfold Liberado
  rw [conteo_soltarBloque, List.count_cons]
  by_cases hjk : j = k
  · subst hjk
    simp only [if_true, true_and, beq_self_eq_true]
    cases conteo s j with
    | none => simp
    | some c =>
      simp only [Option.map_some, Option.some.injEq, exists_eq_left']
      constructor
      · rintro ⟨hne, hpos, hle⟩
        by_cases huno : c = 1
        · exact Or.inl ⟨hne, huno⟩
        · refine Or.inr ⟨hne, by omega, ?_⟩
          push_cast at hle
          omega
      · rintro (⟨hne, rfl⟩ | ⟨hne, hpos, hle⟩)
        · exact ⟨hne, le_refl 1, by push_cast; omega⟩
        · exact ⟨hne, by omega, by push_cast; omega⟩
  · have hne : (k == j) = false := by simpa using Ne.symm hjk
    simp [hjk, hne]

@[simp] theorem enlaces_soltarBloque (s : Storage) (k : ℕ) :
    (soltarBloque sb s k).disco.links = s.disco.links := by
  unfold soltarBloque
  dsimp only
  split_ifs
  · rfl
  · rfl

@[simp] theorem lista_soltarBloque (s : Storage) (k : ℕ) :
    (soltarBloque sb s k).listaFiles = s.listaFiles := by
  unfold soltarBloque
  dsimp only
  split_ifs
  · rfl
  · rfl

/-- What the entries `ks` do to files and bits. -/
structure Liberacion (sb : Superbloque) (s : Storage) (ks : List ℕ) (s' : Storage) : Prop where
  archivo_libre : ∀ k, Liberado s ks k →
    s'.disco.physicalBlocks (nombreBloqueFisico k) = some (List.replicate sb.blockSize 0)
  archivo_otro : ∀ b, (∀ k, b = nombreBloqueFisico k → ¬ Liberado s ks k) →
    s'.disco.physicalBlocks b = s.disco.physicalBlocks b
  bit_libre : ∀ k, Liberado s ks k → s'.bitmap[k]? ≠ some true
  bit_otro : ∀ k, ¬ Liberado s ks k → s'.bitmap[k]? = s.bitmap[k]?
  enlaces : s'.disco.links = s.disco.links
  lista : s'.listaFiles = s.listaFiles

theorem soltarBloque_libre {k : ℕ} (hk : k ≠ 0) (huno : conteo s k = some 1) :
    soltarBloque sb s k =
      { sumarAsociados s k (-1) with
        bitmap := bitmapMarcarBloqueLibre s.bitmap k
        disco := s.disco.escribirArchivoTruncado (nombreBloqueFisico k)
          (List.replicate sb.blockSize 0) } := by
  have hcero : conteo (sumarAsociados s k (-1)) k = some 0 := by
    obtain ⟨bf, hbf, hcount⟩ := Option.map_eq_some_iff.mp huno
    simp [conteo, sumarAsociados, hbf, hcount]
  unfold soltarBloque
  dsimp only
  rw [if_pos ⟨hcero, hk⟩]
  rfl

theorem soltarBloque_ocupado {k : ℕ} (hn : ¬ (k ≠ 0 ∧ conteo s k = some 1)) :
    soltarBloque sb s k = sumarAsociados s k (-1) := by
  unfold soltarBloque
  refine if_neg ?_
  rintro ⟨hcero, hk⟩
  refine hn ⟨hk, ?_⟩
  obtain ⟨bf, hbf, hcount⟩ := Option.map_eq_some_iff.mp hcero
  unfold sumarAsociados at hbf
  rw [List.getElem?_modify_eq] at hbf
  obtain ⟨bf', hbf', rfl⟩ := Option.map_eq_some_iff.mp hbf
  unfold conteo
  rw [hbf', Option.map_some]
  simp only at hcount
  congr 1
  omega

theorem archivo_soltarBloque_libre (sb : Superbloque) {k : ℕ} (hk : k ≠ 0)
    (huno : conteo s k = some 1) :
    (soltarBloque sb s k).disco.physicalBlocks (nombreBloqueFisico k) =
      some (List.replicate sb.blockSize 0) := by
  rw [soltarBloque_libre hk huno]
  exact Function.update_self ..

theorem archivo_soltarBloque_otro (sb : Superbloque) {k : ℕ} {b : String}
    (hb : b = nombreBloqueFisico k → ¬ (k ≠ 0 ∧ conteo s k = some 1)) :
    (soltarBloque sb s k).disco.physicalBlocks b = s.disco.physicalBlocks b := by
  by_cases hlibre : k ≠ 0 ∧ conteo s k = some 1
  · rw [soltarBloque_libre hlibre.1 hlibre.2]
    exact Function.update_of_ne (fun hbk => hb hbk hlibre) ..
  · rw [soltarBloque_ocupado hlibre]
    rfl

theorem bit_soltarBloque_libre (sb : Superbloque) {k : ℕ} (hk : k ≠ 0)
    (huno : conteo s k = some 1) : (soltarBloque sb s k).bitmap[k]? ≠ some true := by
  rw [soltarBloque_libre hk huno]
  intro hbit
  rw [bitmapMarcarBloqueLibre, List.getElem?_set_self'] at hbit
  cases hold : s.bitmap[k]? with
  | none => simp [hold] at hbit
  | some b => simp [hold] at hbit

theorem bit_soltarBloque_otro (sb : Superbloque) {k j : ℕ}
    (hj : j = k → ¬ (k ≠ 0 ∧ conteo s k = some 1)) :
    (soltarBloque sb s k).bitmap[j]? = s.bitmap[j]? := by
  by_cases hlibre : k ≠ 0 ∧ conteo s k = some 1
  · rw [soltarBloque_libre hlibre.1 hlibre.2]
    exact List.getElem?_set_ne fun hkj => hj hkj.symm hlibre
  · rw [soltarBloque_ocupado hlibre]
    rfl

theorem liberacion_foldl (sb : Superbloque) (s : Storage) (ks : List ℕ) :
    Liberacion sb s ks (ks.foldl (soltarBloque sb) s) := by
  induction ks generalizing s with
  | nil =>
    have hnunca : ∀ k, ¬ Liberado s [] k := by
      rintro k ⟨_, c, _, hpos, hle⟩
      rw [List.count_nil] at hle
      omega
    exact ⟨fun k hk => absurd hk (hnunca k), fun _ _ => rfl, fun k hk => absurd hk (hnunca k),
      fun _ _ => rfl, rfl, rfl⟩
  | cons k ks ih =>
    have hresto := ih (soltarBloque sb s k)
    rw [List.foldl_cons]
    set s' := ks.foldl (soltarBloque sb) (soltarBloque sb s k)
    refine ⟨fun j hj => ?_, fun b hb => ?_, fun j hj => ?_, fun j hj => ?_, ?_, ?_⟩
    · by_cases hluego : Liberado (soltarBloque sb s k) ks j
      · exact hresto.archivo_libre j hluego
      · obtain ⟨rfl, hk, huno⟩ | hluego' := (liberado_cons sb k ks j).mp hj
        · rw [hresto.archivo_otro _ fun i hi => nombreBloqueFisico_injective hi ▸ hluego]
          exact archivo_soltarBloque_libre sb hk huno
        · exact absurd hluego' hluego
    · rw [hresto.archivo_otro b fun i hi hluego =>
        hb i hi ((liberado_cons sb k ks i).mpr (Or.inr hluego))]
      refine archivo_soltarBloque_otro sb fun hbk hlibre => ?_
      exact hb k hbk ((liberado_cons sb k ks k).mpr (Or.inl ⟨rfl, hlibre⟩))
    · by_cases hluego : Liberado (soltarBloque sb s k) ks j
      · exact hresto.bit_libre j hluego
      · obtain ⟨rfl, hk, huno⟩ | hluego' := (liberado_cons sb k ks j).mp hj
        · rw [hresto.bit_otro j hluego]
          exact bit_soltarBloque_libre sb hk huno
        · exact absurd hluego' hluego
    · rw [hresto.bit_otro j fun hluego => hj ((liberado_cons sb k ks j).mpr (Or.inr hluego))]
      refine bit_soltarBloque_otro sb ?_
      rintro rfl hlibre
      exact hj ((liberado_cons sb j ks j).mpr (Or.inl ⟨rfl, hlibre⟩))
    · rw [hresto.enlaces, enlaces_soltarBloque]
    · rw [hresto.lista, lista_soltarBloque]

/-- The blocks the entries of a Tag are for. -/
def entradas (sb : Superbloque) (tag : Tag) : List ℕ :=
  tag.metadata.blocksFisicosUsados.filterMap (bloqueDe sb)

theorem liberado_reverse (s : Storage) (ks : List ℕ) (k : ℕ) :
    Liberado s ks.reverse k ↔ Liberado s ks k := by
  unfold Liberado
  rw [List.count_reverse]

theorem delete_liberacion (h : TablaCompleta sb s) {tag : Tag} (htag : buscarTag s f t = some tag) :
    ∃ s₁, Liberacion sb s (entradas sb tag) s₁ ∧ operacionEliminarTag sb s f t =
      quitarTag (cambiarDisco s₁ (s₁.disco.eliminarCarpetaConContenido (rutaTag f t))) f t := by
  obtain hl := liberacion_foldl sb s (entradas sb tag).reverse
  refine ⟨(entradas sb tag).reverse.foldl (soltarBloque sb) s, ⟨?_, ?_, ?_, ?_, hl.enlaces,
    hl.lista⟩, ?_⟩
  · exact fun k hk => hl.archivo_libre k ((liberado_reverse s _ k).mpr hk)
  · exact fun b hb => hl.archivo_otro b fun k hk => mt (liberado_reverse s _ k).mp (hb k hk)
  · exact fun k hk => hl.bit_libre k ((liberado_reverse s _ k).mpr hk)
  · exact fun k hk => hl.bit_otro k (mt (liberado_reverse s _ k).mp hk)
  · unfold operacionEliminarTag
    simp only [htag]
    rw [liberarUsados_eq h, List.filterMap_reverse]
    rfl

end Liberar

section Danio

/-- DELETE of a Tag: other Tags are read as before, and the blocks they are
linked to stay in use. -/
def BorraSinDanio (sb : Superbloque) (s s' : Storage) (f t : String) : Prop :=
  ∀ f' t', rutaTag f' t' ≠ rutaTag f t →
    (∀ n, storageReadBlock sb s' f' t' n = storageReadBlock sb s f' t' n) ∧
    ∀ n k, enlaceDe s f' t' n = some (nombreBloqueFisico k) → s.bitmap[k]? = some true →
      s'.bitmap[k]? = some true

/-- The block counts as free and a READ of it sends zeros. -/
def YaLibre (sb : Superbloque) (s : Storage) (k : ℕ) : Prop :=
  s.bitmap[k]? ≠ some true ∧
    enviado sb (s.disco.physicalBlocks (nombreBloqueFisico k)) =
      .bloque (List.replicate sb.blockSize 0)

/-- A block another Tag is linked to has a count above the number of entries the
deleted Tag has for it, or one that is not positive. -/
def NoLiberaAjenos (sb : Superbloque) (s : Storage) : Solicitud → Prop
  | .delete f t => ∀ tag, buscarTag s f t = some tag → ∀ f' t', rutaTag f' t' ≠ rutaTag f t →
      ∀ n k, enlaceDe s f' t' n = some (nombreBloqueFisico k) →
        Liberado s (entradas sb tag) k → YaLibre sb s k
  | _ => True

theorem enviado_ceros (sb : Superbloque) :
    enviado sb (some (List.replicate sb.blockSize 0)) =
      .bloque (List.replicate sb.blockSize 0) := by
  simp [enviado]

theorem enlaceDe_delete {s₁ : Storage} {ks : List ℕ} (hl : Liberacion sb s ks s₁) {f' t' : String}
    (hne : rutaTag f' t' ≠ rutaTag f t) (n : ℕ) :
    enlaceDe (quitarTag (cambiarDisco s₁ (s₁.disco.eliminarCarpetaConContenido (rutaTag f t))) f t)
      f' t' n = enlaceDe s f' t' n := by
  unfold enlaceDe
  rw [buscarTag_quitarTag_ne _ hne]
  change ((buscarTag s₁ f' t').bind _).bind _ = _
  rw [buscarTag_congr hl.lista]
  congr 1
  funext bl
  change (if directorio (rutaBlockLogico f' t' bl.nombreBlock) = rutaTag f t then none
    else s₁.disco.links _) = _
  rw [directorio_rutaBlockLogico, if_neg hne, hl.enlaces]

theorem borraSinDanio_iff (h : TablaCompleta sb s) {tag : Tag}
    (htag : buscarTag s f t = some tag) :
    BorraSinDanio sb s (operacionEliminarTag sb s f t) f t ↔
      NoLiberaAjenos sb s (.delete f t) := by
  obtain ⟨s₁, hl, hdelete⟩ := delete_liberacion h htag
  rw [hdelete]
  have hleer : ∀ f' t', rutaTag f' t' ≠ rutaTag f t → ∀ n, contenidoDe (quitarTag
      (cambiarDisco s₁ (s₁.disco.eliminarCarpetaConContenido (rutaTag f t))) f t) f' t' n =
        (enlaceDe s f' t' n).bind s₁.disco.physicalBlocks := by
    intro f' t' hne n
    unfold contenidoDe
    rw [enlaceDe_delete hl hne]
    rfl
  constructor
  · intro hbien tag' htag' f' t' hne n k hlink hlibre
    obtain rfl := Option.some.inj (htag.symm.trans htag')
    obtain ⟨hread, hbit⟩ := hbien f' t' hne
    refine ⟨fun hset => hl.bit_libre k hlibre (hbit n k hlink hset), ?_⟩
    have hn := hread n
    rw [storageReadBlock_eq_enviado, storageReadBlock_eq_enviado, if_neg (by omega),
      if_neg (by omega), Int.toNat_natCast, hleer f' t' hne, contenidoDe, hlink, Option.bind_some,
      Option.bind_some, hl.archivo_libre k hlibre, enviado_ceros] at hn
    exact hn.symm
  · intro hbien f' t' hne
    refine ⟨fun n => ?_, fun n k hlink hset => ?_⟩
    · rw [storageReadBlock_eq_enviado, storageReadBlock_eq_enviado, hleer f' t' hne, contenidoDe]
      congr 1
      cases hlink : enlaceDe s f' t' n.toNat with
      | none => rfl
      | some b =>
        rw [Option.bind_some, Option.bind_some]
        by_cases hlibre : ∃ k, b = nombreBloqueFisico k ∧ Liberado s (entradas sb tag) k
        · obtain ⟨k, rfl, hlibre⟩ := hlibre
          rw [hl.archivo_libre k hlibre, enviado_ceros]
          exact (hbien tag htag f' t' hne _ k hlink hlibre).2.symm
        · rw [hl.archivo_otro b fun k hk hk' => hlibre ⟨k, hk, hk'⟩]
    · have hocupado : ¬ Liberado s (entradas sb tag) k := fun hlibre =>
        (hbien tag htag f' t' hne n k hlink hlibre).1 hset
      exact (hl.bit_otro k hocupado).trans hset

/-- Of one request, and of the values of the strings alone. -/
theorem borraSinDanio_paso_iff (htabla : TablaCompleta sb s) (x : Solicitud) :
    (∀ f t, x = .delete f t → ∀ s₂, paso md5 sb s x = .ok s₂ → BorraSinDanio sb s s₂ f t) ↔
      NoLiberaAjenos sb s x := by
  cases x with
  | delete f t =>
    have hpaso : paso md5 sb s (.delete f t) = .ok (operacionEliminarTag sb s f t) := rfl
    cases htag : buscarTag s f t with
    | none =>
      have hnada : operacionEliminarTag sb s f t = s := by
        unfold operacionEliminarTag
        rw [htag]
      refine iff_of_true ?_ (by simp [NoLiberaAjenos, htag])
      rintro f' t' ⟨rfl, rfl⟩ s' hs'
      rw [hpaso, hnada] at hs'
      obtain rfl := Except.ok.inj hs'
      exact fun f' t' _ => ⟨fun _ => rfl, fun _ _ _ => id⟩
    | some tag =>
      rw [← borraSinDanio_iff htabla htag]
      constructor
      · exact fun hbien => hbien f t rfl _ hpaso
      · rintro hbien f' t' ⟨rfl, rfl⟩ s' hs'
        rw [hpaso] at hs'
        obtain rfl := Except.ok.inj hs'
        exact hbien
  | create | truncate | tag | commit | writeBlock | readBlock | flush =>
    exact iff_of_true (fun _ _ heq => by simp at heq) trivial

/-- When a DELETE is not carried out on strings that have been freed, and takes no block
from another Tag. -/
def BorraLoSuyo (md5 : Bytes → String) (sb : Superbloque) (c : Vigilado) (x : Solicitud) : Prop :=
  ∀ f t, x = .delete f t →
    c.known = true ∧ SinTocarLiberadas md5 sb c x ∧ NoLiberaAjenos sb c.state x

/-- In a run of plain requests from any state with the whole table, wherever the arrays
point, no DELETE does damage exactly when none uses a freed string or takes the count of a
block to zero that another Tag is linked to. -/
theorem borraSinDanio_eachStep_iff (md5 : Bytes → String) {c : Vigilado}
    (h : TablaCompleta sb c.state) {raiz : Bytes} (xs : List (Pedido raiz)) :
    EachStep (pasoVigilado md5 sb) (fun c₁ x => ∀ f t, x = .delete f t → ∀ c₂,
        pasoVigilado md5 sb c₁ x = .ok c₂ →
          c₂.known = true ∧ BorraSinDanio sb c₁.state c₂.state f t) c xs.unattach ↔
      EachStep (pasoVigilado md5 sb) (BorraLoSuyo md5 sb) c xs.unattach := by
  refine eachStep_congr (I := fun c => TablaCompleta sb c.state) ?_ ?_ h xs.unattach
  · intro c₁ x c₂ htabla hop
    rcases watchedStep_state hop with heq | hpaso
    · exact heq ▸ htabla
    · exact (tabla_paso hpaso).trans htabla
  · intro c₁ x c₂ htabla hop
    constructor
    · intro hbien f t hx
      obtain ⟨hconocido, -⟩ := hbien f t hx c₂ hop
      obtain ⟨hc₁, hpaso, hharm, -⟩ := known_of_watchedStep hop hconocido
      refine ⟨hc₁, fun s' hs' => Except.ok.inj (hs'.symm.trans hpaso) ▸ hharm, ?_⟩
      apply (borraSinDanio_paso_iff htabla x).mp
      intro f' t' hx' s₂ hs₂
      obtain rfl := Except.ok.inj (hs₂.symm.trans hpaso)
      exact (hbien f' t' hx' c₂ hop).2
    · rintro hsuyo f t hx c₂' hop'
      obtain ⟨hc₁, hsin, hno⟩ := hsuyo f t hx
      obtain ⟨s₂, hs₂⟩ : ∃ s₂, paso md5 sb c₁.state x = .ok s₂ := by
        rw [hx]
        exact ⟨_, rfl⟩
      have hgood := watchedStep_of_harmless hc₁ hs₂ (hsin s₂ hs₂)
      obtain rfl := Except.ok.inj (hop'.symm.trans hgood)
      exact ⟨rfl, (borraSinDanio_paso_iff htabla x).mpr hno f t hx s₂ hs₂⟩

end Danio

section Consistente

/-- The block names of a Tag's metadata are those of its logical blocks, once each. -/
def UsadosExactos (sb : Superbloque) (tag : Tag) : Prop :=
  (tag.metadata.blocksFisicosUsados.map fun e => nameBloque (cantBlock sb) (atoi e)).Nodup ∧
    ∀ b, b ∈ (tag.metadata.blocksFisicosUsados.map fun e => nameBloque (cantBlock sb) (atoi e)) ↔
      ∃ bl ∈ tag.listaBlockLogicos, bl.bloqueFisicoAsociado = b

/-- Memory, metadata, index and bitmap all say what the disk has. -/
structure EstadoConsistente (md5 : Bytes → String) (sb : Superbloque) (s : Storage) : Prop where
  tabla : TablaCompleta sb s
  nombres : NamesUnique s
  enlaces : LinksAgree s
  conteos : RefExact s
  usados : ∀ f t tag, buscarTag s f t = some tag → UsadosExactos sb tag
  indice : IndexSound md5 s
  bits : BitmapExact sb s

theorem countP_quitarTag (p : BlockLogico → Bool) {tag : Tag} (htag : buscarTag s f t = some tag) :
    (bloquesLogicos (quitarTag s f t)).countP p + tag.listaBlockLogicos.countP p =
      (bloquesLogicos s).countP p := by
  obtain ⟨file, hfile, hfirst⟩ := buscarTag_eq_some htag
  have hfiles := sum_modifyFirst
    (g := fun file : File => { file with tags := eraseFirst Tag.nameTag t file.tags })
    (fun x : File => (x.tags.map fun tag => tag.listaBlockLogicos.countP p).sum) hfile
  have htags := sum_eraseFirst (fun tag : Tag => tag.listaBlockLogicos.countP p) hfirst
  unfold bloquesLogicos quitarTag modificarTags
  simp only [List.countP_flatMap, Function.comp_def] at hfiles htags ⊢
  omega

/-- A block two Tags have is counted twice. -/
theorem dos_le_countP {f' t' b : String} {tag tag' : Tag} (hne : rutaTag f' t' ≠ rutaTag f t)
    (htag : buscarTag s f t = some tag) (htag' : buscarTag s f' t' = some tag')
    (hb : ∃ bl ∈ tag.listaBlockLogicos, bl.bloqueFisicoAsociado = b)
    (hb' : ∃ bl ∈ tag'.listaBlockLogicos, bl.bloqueFisicoAsociado = b) :
    2 ≤ (bloquesLogicos s).countP fun bl => bl.bloqueFisicoAsociado = b := by
  have htag'' : buscarTag (quitarTag s f t) f' t' = some tag' := by
    rw [buscarTag_quitarTag_ne s hne, htag']
  have huno := countP_quitarTag (fun bl => bl.bloqueFisicoAsociado = b) htag
  have hotro := countP_quitarTag (fun bl => bl.bloqueFisicoAsociado = b) htag''
  have hpos : 0 < tag.listaBlockLogicos.countP fun bl => bl.bloqueFisicoAsociado = b :=
    List.countP_pos_iff.mpr (by simpa using hb)
  have hpos' : 0 < tag'.listaBlockLogicos.countP fun bl => bl.bloqueFisicoAsociado = b :=
    List.countP_pos_iff.mpr (by simpa using hb')
  omega

theorem nameBloque_of_bloqueDe {e : String} {k : ℕ} (h : bloqueDe sb e = some k) :
    nameBloque (cantBlock sb) (atoi e) = nombreBloqueFisico k := by
  unfold bloqueDe at h
  unfold nameBloque
  split_ifs at h ⊢
  rw [Option.some.inj h]

theorem count_entradas_le {tag : Tag} (h : UsadosExactos sb tag) (k : ℕ) :
    (entradas sb tag).count k ≤ 1 := by
  have hsub : ((entradas sb tag).map nombreBloqueFisico).Sublist
      (tag.metadata.blocksFisicosUsados.map fun e => nameBloque (cantBlock sb) (atoi e)) := by
    unfold entradas
    generalize tag.metadata.blocksFisicosUsados = es
    induction es with
    | nil => exact List.Sublist.slnil
    | cons e es ih =>
      rw [List.map_cons]
      cases hbloque : bloqueDe sb e with
      | none =>
        rw [List.filterMap_cons_none hbloque]
        exact ih.cons _
      | some k =>
        rw [List.filterMap_cons_some hbloque, List.map_cons, nameBloque_of_bloqueDe hbloque]
        exact ih.cons_cons _
  exact List.nodup_iff_count_le_one.mp (List.Nodup.of_map _ (h.1.sublist hsub)) k

/-- In a consistent state no DELETE does damage. -/
theorem EstadoConsistente.noLiberaAjenos (h : EstadoConsistente md5 sb s) (x : Solicitud) :
    NoLiberaAjenos sb s x := by
  cases x with
  | delete f t =>
    intro tag htag f' t' hne n k hlink ⟨_, c, hconteo, hpos, hle⟩
    have huno := count_entradas_le (h.usados f t tag htag) k
    have hmem : k ∈ entradas sb tag := List.count_pos_iff.mp (by omega)
    obtain ⟨e, he, hbloque⟩ := List.mem_filterMap.mp hmem
    have htiene := ((h.usados f t tag htag).2 (nombreBloqueFisico k)).mp
      (List.mem_map.mpr ⟨e, he, nameBloque_of_bloqueDe hbloque⟩)
    obtain ⟨bl, hbl, hr⟩ := Option.bind_eq_some_iff.mp hlink
    obtain ⟨tag', htag', hget⟩ := Option.bind_eq_some_iff.mp hbl
    have hotro : bl.bloqueFisicoAsociado = nombreBloqueFisico k := by
      have hlinks := h.enlaces f' t' tag' htag' bl (List.mem_of_getElem? hget)
      exact Option.some.inj (hlinks.symm.trans hr)
    have hdos := dos_le_countP hne htag htag' htiene ⟨bl, List.mem_of_getElem? hget, hotro⟩
    obtain ⟨bf, hbf, rfl⟩ := Option.map_eq_some_iff.mp hconteo
    have hpath := pathBlock_of_tabla h.tabla hbf
    have hexact := h.conteos bf (List.mem_of_getElem? hbf)
    rw [hpath] at hexact
    omega
  | create | truncate | tag | commit | writeBlock | readBlock | flush => trivial

end Consistente

section Ejemplo

def tagCompartido (nameTag bloque nro : String) (estado : Estado) : Tag :=
  ⟨nameTag, ⟨2, [nro], estado⟩, [⟨"000000.dat", bloque⟩]⟩

/-- Two Tags share a block; a third, committed one has the same bytes in another. -/
def estadoCompartido : Storage where
  listaFiles := [⟨"a", [tagCompartido "b" "block0002" "2" .workInProgress]⟩,
    ⟨"c", [tagCompartido "d" "block0002" "2" .workInProgress]⟩,
    ⟨"e", [tagCompartido "f" "block0001" "1" .commited]⟩]
  listaBloquesFisicos := [⟨"block0000", some [0, 0], 0⟩, ⟨"block0001", some [65, 66], 1⟩,
    ⟨"block0002", some [65, 66], 2⟩, ⟨"block0003", some [0, 0], 0⟩]
  bitmap := [true, true, true, false, false, false, false, false]
  hashIndexConfig := [(hashContenido hashLegible [65, 66], "block0001")]
  disco := {
    physicalBlocks := fun b =>
      if b = "block0001" ∨ b = "block0002" then some [65, 66]
      else if b = "block0000" ∨ b = "block0003" then some [0, 0] else none
    tagDirs := fun rt => rt = ("a", "b") ∨ rt = ("c", "d") ∨ rt = ("e", "f")
    links := fun r =>
      if r = ("a", "b", "000000.dat") ∨ r = ("c", "d", "000000.dat") then some "block0002"
      else if r = ("e", "f", "000000.dat") then some "block0001" else none
    metadataConfig := fun rt =>
      if rt = ("a", "b") ∨ rt = ("c", "d") then
        some [("TAMAÑO", "2"), ("BLOCKS", "[2]"), ("ESTADO", "WORK_IN_PROGRESS")]
      else if rt = ("e", "f") then
        some [("TAMAÑO", "2"), ("BLOCKS", "[1]"), ("ESTADO", "COMMITED")] else none
    blocksHashIndex := [(hashContenido hashLegible [65, 66], "block0001")] }

theorem tabla_estadoCompartido : TablaCompleta superbloqueChico estadoCompartido := by
  unfold TablaCompleta
  decide

theorem tags_estadoCompartido {tag : Tag} (h : buscarTag estadoCompartido f t = some tag) :
    (f = "a" ∧ t = "b" ∧ tag = tagCompartido "b" "block0002" "2" .workInProgress) ∨
    (f = "c" ∧ t = "d" ∧ tag = tagCompartido "d" "block0002" "2" .workInProgress) ∨
    (f = "e" ∧ t = "f" ∧ tag = tagCompartido "f" "block0001" "1" .commited) := by
  obtain ⟨file, hfile, rfl, hmem⟩ := mem_of_buscarTag h
  have ht := nameTag_of_buscarTag h
  simp only [estadoCompartido, List.mem_cons, List.not_mem_nil, or_false] at hfile
  rcases hfile with rfl | rfl | rfl
  · obtain rfl := List.mem_singleton.mp hmem
    exact Or.inl ⟨rfl, ht.symm, rfl⟩
  · obtain rfl := List.mem_singleton.mp hmem
    exact Or.inr (Or.inl ⟨rfl, ht.symm, rfl⟩)
  · obtain rfl := List.mem_singleton.mp hmem
    exact Or.inr (Or.inr ⟨rfl, ht.symm, rfl⟩)

theorem usadosExactos_tagCompartido (nameTag : String) (estado : Estado) :
    UsadosExactos superbloqueChico (tagCompartido nameTag "block0002" "2" estado) ∧
      UsadosExactos superbloqueChico (tagCompartido nameTag "block0001" "1" estado) := by
  have hdos : nameBloque (cantBlock superbloqueChico) (atoi "2") = "block0002" := by decide
  have huno : nameBloque (cantBlock superbloqueChico) (atoi "1") = "block0001" := by decide
  simp [UsadosExactos, tagCompartido, hdos, huno, eq_comm]

theorem consistente_estadoCompartido :
    EstadoConsistente hashLegible superbloqueChico estadoCompartido where
  tabla := tabla_estadoCompartido
  nombres := by decide
  enlaces := by
    intro f t tag htag
    rcases tags_estadoCompartido htag with ⟨rfl, rfl, rfl⟩ | ⟨rfl, rfl, rfl⟩ | ⟨rfl, rfl, rfl⟩
    · decide
    · decide
    · decide
  conteos := by decide
  usados := by
    intro f t tag htag
    rcases tags_estadoCompartido htag with ⟨rfl, rfl, rfl⟩ | ⟨rfl, rfl, rfl⟩ | ⟨rfl, rfl, rfl⟩
    · exact (usadosExactos_tagCompartido "b" .workInProgress).1
    · exact (usadosExactos_tagCompartido "d" .workInProgress).1
    · exact (usadosExactos_tagCompartido "f" .commited).2
  indice := by
    refine ⟨rfl, fun hash b hget => ?_⟩
    by_cases hhash : hashContenido hashLegible [65, 66] = hash
    · subst hhash
      obtain rfl : "block0001" = b := by
        simpa [estadoCompartido, configGet, first] using hget
      exact ⟨[65, 66], rfl, rfl⟩
    · simp [estadoCompartido, configGet, first, hhash] at hget
  bits := by
    intro n hn
    have hlinks : ∀ n, (∃ r, estadoCompartido.disco.links r = some (nombreBloqueFisico n)) ↔
        nombreBloqueFisico n = "block0002" ∨ nombreBloqueFisico n = "block0001" := by
      intro n
      constructor
      · rintro ⟨r, hr⟩
        simp only [estadoCompartido] at hr
        split_ifs at hr
        · exact Or.inl (Option.some.inj hr).symm
        · exact Or.inr (Option.some.inj hr).symm
      · rintro (hname | hname)
        · exact ⟨("a", "b", "000000.dat"), by rw [hname]; rfl⟩
        · exact ⟨("e", "f", "000000.dat"), by rw [hname]; rfl⟩
    rw [hlinks]
    have hcuatro : n < 4 := hn
    obtain rfl | rfl | rfl | rfl : n = 0 ∨ n = 1 ∨ n = 2 ∨ n = 3 := by omega
    all_goals decide

/-- Each Tag has a string of its own. -/
def vigiladoCompartido : Vigilado :=
  ⟨estadoCompartido, ⟨[(rutaTag "a" "b", [0]), (rutaTag "c" "d", [1]), (rutaTag "e" "f", [2])],
    [], 3⟩, true⟩

def pedidosCompartido : List (Pedido raizChica) :=
  [Solicitud.commit "a" "b", .delete "a" "b"].attachWith (Llana raizChica) (by decide)

theorem borraSinDanio_eachStep_iff_compartido :
    EachStep (pasoVigilado hashLegible superbloqueChico) (fun c₁ x => ∀ f t, x = .delete f t →
        ∀ c₂, pasoVigilado hashLegible superbloqueChico c₁ x = .ok c₂ →
          c₂.known = true ∧ BorraSinDanio superbloqueChico c₁.state c₂.state f t)
        vigiladoCompartido pedidosCompartido.unattach ↔
      EachStep (pasoVigilado hashLegible superbloqueChico)
        (BorraLoSuyo hashLegible superbloqueChico) vigiladoCompartido pedidosCompartido.unattach :=
  borraSinDanio_eachStep_iff (c := vigiladoCompartido) hashLegible tabla_estadoCompartido _

/-- COMMIT moves a Tag to the other block and leaves its metadata as it was. -/
theorem not_borraSinDanio : ¬ ∀ md5 sb s xs, EstadoConsistente md5 sb s →
    EachStep (paso md5 sb) (fun s₁ x => ∀ f t, x = .delete f t → ∀ s₂,
      paso md5 sb s₁ x = .ok s₂ → BorraSinDanio sb s₁ s₂ f t) s xs := by
  intro h
  have hrun := h hashLegible superbloqueChico estadoCompartido [.commit "a" "b", .delete "a" "b"]
    consistente_estadoCompartido
  have hcommit : (paso hashLegible superbloqueChico estadoCompartido (.commit "a" "b")).map
      (fun s => storageReadBlock superbloqueChico s "c" "d" 0) = .ok (.bloque [65, 66]) := by
    decide
  have hdelete : (run (paso hashLegible superbloqueChico) estadoCompartido
      [.commit "a" "b", .delete "a" "b"]).map
      (fun s => storageReadBlock superbloqueChico s "c" "d" 0) = .ok (.bloque [0, 0]) := by
    decide
  cases hs₁ : paso hashLegible superbloqueChico estadoCompartido (.commit "a" "b") with
  | error e =>
    rw [hs₁] at hcommit
    simp [Except.map] at hcommit
  | ok s₁ =>
    rw [hs₁] at hcommit
    rw [run_cons _ hs₁] at hdelete
    have hpaso : paso hashLegible superbloqueChico s₁ (.delete "a" "b") =
        .ok (operacionEliminarTag superbloqueChico s₁ "a" "b") := rfl
    have hleer := ((hrun s₁ hs₁).2 _ hpaso).1 "a" "b" rfl _ hpaso "c" "d" (by decide)
    rw [run_cons _ hpaso] at hdelete
    have hcero := (Except.ok.inj hdelete).symm.trans
      ((hleer.1 0).trans (Except.ok.inj hcommit))
    exact absurd hcero (by decide)

end Ejemplo

end MasterOfFiles.DeleteFrames
