import MasterOfFiles.CommitDeduplication

/-!
The table of physical blocks. Requests change the counts and the cached contents
of its entries, from any state, and never which blocks it has or their order.
-/
namespace MasterOfFiles.BlockTable

open KeyedLists ByteBuffers BlockNames StorageState StorageFiles StorageOperations
open BlockZero TruncateEffects RequestEffects ReachableStates CommitDeduplication

variable {md5 : Bytes → String} {sb : Superbloque} {s s' : Storage} {f t : String}

def tabla (s : Storage) : List String := s.listaBloquesFisicos.map BlockFisico.pathBlock

/-- The table has the blocks of the disk in their order. -/
def TablaCompleta (sb : Superbloque) (s : Storage) : Prop :=
  tabla s = (List.range (cantBlock sb)).map nombreBloqueFisico

theorem pathBlock_of_tabla (h : TablaCompleta sb s) {k : ℕ} {bf : BlockFisico}
    (hbf : s.listaBloquesFisicos[k]? = some bf) : bf.pathBlock = nombreBloqueFisico k := by
  have hk : (tabla s)[k]? = some bf.pathBlock := by
    unfold tabla
    rw [List.getElem?_map, hbf, Option.map_some]
  rw [h, List.getElem?_map] at hk
  obtain ⟨j, hj, hname⟩ := Option.map_eq_some_iff.mp hk
  rw [← hname, ← (List.getElem?_eq_some_iff.mp hj).2, List.getElem_range]

/-- A table with the names in order has each at its own index. -/
theorem buscarIndex_of_rango {n k : ℕ} (h : tabla s = (List.range n).map nombreBloqueFisico)
    (hk : k < n) : buscarIndexBlockFisico s (nombreBloqueFisico k) = some k := by
  have hmap : buscarIndexBlockFisico s (nombreBloqueFisico k) =
      (tabla s).findIdx? (· = nombreBloqueFisico k) := by
    unfold tabla
    rw [List.findIdx?_map]
    rfl
  rw [hmap, h, List.findIdx?_eq_some_iff_getElem]
  refine ⟨by simpa using hk, by simp, fun j hj => ?_⟩
  simp only [List.getElem_map, List.getElem_range, decide_eq_true_eq]
  exact fun hname => hj.ne (nombreBloqueFisico_injective hname)

theorem buscarIndex_of_tabla (h : TablaCompleta sb s) {k : ℕ} (hk : k < cantBlock sb) :
    buscarIndexBlockFisico s (nombreBloqueFisico k) = some k :=
  buscarIndex_of_rango h hk

@[simp] theorem tabla_sumarAsociados (s : Storage) (i : ℕ) (k : ℤ) :
    tabla (sumarAsociados s i k) = tabla s := by
  refine map_pathBlock_modify ?_ _ i
  exact fun _ => rfl

theorem tabla_agrandar (s : Storage) (f t : String) (nro : ℤ) (m : ℕ) :
    tabla (agrandar s f t nro m).1 = tabla s := by
  induction m generalizing s nro with
  | zero => rfl
  | succ m ih =>
    unfold agrandar
    cases huno : agrandarUno s f t nro with
    | none => rfl
    | some s₁ =>
      have htabla : tabla s₁ = tabla s := by
        unfold agrandarUno at huno
        split at huno
        · simp at huno
        · dsimp only at huno
          split at huno
          · rw [← Option.some.inj huno]
            rfl
          · rw [← Option.some.inj huno, tabla_sumarAsociados]
            rfl
      exact (ih s₁ (nro + 1)).trans htabla

theorem tabla_achicar {m : ℕ} (hop : achicar s f t m = .ok s') : tabla s' = tabla s := by
  induction m generalizing s with
  | zero =>
    rw [← Except.ok.inj hop]
  | succ m ih =>
    unfold achicar at hop
    cases huno : achicarUno s f t with
    | error e => simp [huno] at hop
    | ok s₁ =>
      simp only [huno] at hop
      have htabla : tabla s₁ = tabla s := by
        unfold achicarUno at huno
        split at huno
        · rw [← Except.ok.inj huno]
        · dsimp only at huno
          split at huno
          · rw [← Except.ok.inj huno]
            rfl
          · split_ifs at huno
            rw [← Except.ok.inj huno, tabla_sumarAsociados]
            rfl
      exact (ih hop).trans htabla

theorem tabla_soltarTomar (s : Storage) (bfViejo bfNuevo : String) :
    tabla (tomarNuevo (soltarViejo s bfViejo) bfNuevo) = tabla s := by
  have hsoltar : tabla (soltarViejo s bfViejo) = tabla s := by
    unfold soltarViejo
    split
    · rfl
    · dsimp only
      split_ifs
      · exact tabla_sumarAsociados s _ _
      · exact tabla_sumarAsociados s _ _
  unfold tomarNuevo
  split
  · exact hsoltar
  · rw [tabla_sumarAsociados, hsoltar]

theorem tabla_guardarMetadata (s : Storage) (f t : String) :
    tabla (guardarMetadata s f t) = tabla s := by
  obtain ⟨mc, hmc⟩ := guardarMetadata_eq s f t
  rw [hmc]
  rfl

theorem tabla_terminarTruncate (s : Storage) (f t : String) (tamanio : ℤ) :
    tabla (terminarTruncate s f t tamanio) = tabla s :=
  tabla_guardarMetadata (modificarTag s f t (fijarTamanio tamanio)) f t

theorem tabla_truncate {tamanio c : ℤ}
    (hop : operacionTruncateFile sb s f t tamanio = .ok (s', c)) : tabla s' = tabla s := by
  unfold operacionTruncateFile at hop
  split_ifs at hop
  · rw [← (Prod.mk.inj (Except.ok.inj hop)).1]
  · split at hop
    · rw [← (Prod.mk.inj (Except.ok.inj hop)).1]
    · next tag _ =>
      dsimp only at hop
      split_ifs at hop
      · rw [← (Prod.mk.inj (Except.ok.inj hop)).1]
      · have hagrandar := tabla_agrandar s f t (cantidadBloques sb tag.metadata.tamanioFile)
          (cantidadBloques sb tamanio - cantidadBloques sb tag.metadata.tamanioFile).toNat
        split at hop
        · next hloop =>
          rw [hloop] at hagrandar
          rw [← (Prod.mk.inj (Except.ok.inj hop)).1]
          exact hagrandar
        · next hloop =>
          rw [hloop] at hagrandar
          rw [← (Prod.mk.inj (Except.ok.inj hop)).1]
          exact (tabla_terminarTruncate _ f t tamanio).trans hagrandar
      · split at hop
        · simp at hop
        · next hloop =>
          rw [← (Prod.mk.inj (Except.ok.inj hop)).1]
          exact (tabla_terminarTruncate _ f t tamanio).trans (tabla_achicar hloop)

theorem tabla_copiarBloques (s : Storage) (f t : String) (bls acc : List BlockLogico) :
    tabla (bls.foldl (copiarBloque f t) (s, acc)).1 = tabla s := by
  induction bls generalizing s acc with
  | nil => rfl
  | cons bl bls ih =>
    have htabla : tabla (copiarBloque f t (s, acc) bl).1 = tabla s := by
      unfold copiarBloque
      split
      · rfl
      · dsimp only
        split
        · rfl
        · rw [tabla_sumarAsociados]
          rfl
    rw [List.foldl_cons]
    exact (ih _ _).trans htabla

theorem tabla_tagFile (s : Storage) (fo tgo f t : String) :
    tabla (operacionTagFile s fo tgo f t).1 = tabla s := by
  unfold operacionTagFile
  split
  · rfl
  · have hasegurar : tabla (asegurarFile s f) = tabla s := by
      rw [asegurarFile_eq]
      rfl
    exact (tabla_copiarBloques _ f t _ []).trans hasegurar

theorem tabla_procesarBloqueCommit {bl bl' : BlockLogico}
    (hop : procesarBloqueCommit md5 f t s bl = .ok (s', bl')) : tabla s' = tabla s := by
  obtain ⟨c, _, ⟨_, rfl, _⟩ | ⟨_, rfl, _⟩ | ⟨b, _, _, hreasignar⟩⟩ :=
    procesarBloqueCommit_pasos hop
  · rfl
  · rfl
  · rw [reasignar_eq] at hreasignar
    rw [← (Prod.mk.inj hreasignar).1]
    exact tabla_soltarTomar
      (cambiarDisco s (moverEnlace s.disco (rutaBlockLogico f t bl.nombreBlock) b))
      bl.bloqueFisicoAsociado b

theorem tabla_procesarBloques {bls bls' : List BlockLogico}
    (hop : procesarBloques md5 f t s bls = .ok (s', bls')) : tabla s' = tabla s := by
  induction bls generalizing s bls' with
  | nil => rw [← (Prod.mk.inj (Except.ok.inj hop)).1]
  | cons bl bls ih =>
    obtain ⟨s₁, bl₁, bls₂, hhead, htail, _⟩ := procesarBloques_cons_ok hop
    exact (ih htail).trans (tabla_procesarBloqueCommit hhead)

theorem tabla_commit {c : ℤ} (hop : operacionCommitTag md5 s f t = .ok (s', c)) :
    tabla s' = tabla s := by
  obtain ⟨rfl, _⟩ | ⟨tag, s₁, bls, _, _, hbloques, rfl, _⟩ := commit_pasos hop
  · rfl
  · have hmodificar : tabla (modificarTag s₁ f t (commitear bls)) = tabla s₁ := rfl
    exact (tabla_guardarMetadata _ f t).trans
      (hmodificar.trans (tabla_procesarBloques hbloques))

theorem tabla_writeBloque (s : Storage) (f t : String) (bl : BlockLogico) (contenido : Bytes) :
    tabla (operacionWriteBloque md5 sb s f t bl contenido).1 = tabla s := by
  unfold operacionWriteBloque
  by_cases hnone : (buscarTag s f t).isNone
  · rw [if_pos hnone]
  · rw [if_neg hnone]
    split
    · rfl
    · by_cases hcabe : sb.blockSize < contenido.length
      · rw [if_pos hcabe]
      · rw [if_neg hcabe]
        split
        · rfl
        · refine map_pathBlock_modify ?_ _ _
          exact fun _ => rfl

theorem tabla_storageWriteBlock (s : Storage) (f t : String) (n : ℕ) (contenido : Bytes) :
    tabla (storageWriteBlock md5 sb s f t n contenido).1 = tabla s := by
  unfold storageWriteBlock
  split
  · rfl
  · split
    · rfl
    · next bl _ =>
      by_cases hcabe : sb.blockSize < contenido.length
      · rw [if_pos hcabe]
      · rw [if_neg hcabe]
        exact tabla_writeBloque s f t bl contenido

theorem tabla_liberarUsado (s : Storage) (e : String) : tabla (liberarUsado sb s e) = tabla s := by
  unfold liberarUsado
  dsimp only
  split
  · rfl
  · split_ifs
    · exact tabla_sumarAsociados s _ _
    · exact tabla_sumarAsociados s _ _

theorem tabla_eliminarTag (s : Storage) (f t : String) :
    tabla (operacionEliminarTag sb s f t) = tabla s := by
  have hfold : ∀ (es : List String) (s : Storage),
      tabla (es.foldl (liberarUsado sb) s) = tabla s := by
    intro es
    induction es with
    | nil => exact fun _ => rfl
    | cons e es ih => exact fun s => (ih _).trans (tabla_liberarUsado s e)
  unfold operacionEliminarTag
  split
  · rfl
  · exact hfold _ s

/-- No request changes which blocks the table has. -/
theorem tabla_paso {x : Solicitud} (hop : paso md5 sb s x = .ok s') : tabla s' = tabla s := by
  cases x with
  | create f t =>
    rw [← Except.ok.inj hop]
    change tabla (operacionCreateFile s f t).1 = tabla s
    unfold operacionCreateFile
    split_ifs
    · rfl
    · rfl
  | truncate f t tamanio =>
    obtain ⟨c, hop⟩ := paso_truncate hop
    exact tabla_truncate hop
  | tag fo tgo f t =>
    rw [← Except.ok.inj hop]
    exact tabla_tagFile s fo tgo f t
  | commit f t =>
    obtain ⟨c, hop⟩ := paso_commit hop
    exact tabla_commit hop
  | writeBlock f t n contenido =>
    rw [← Except.ok.inj hop]
    exact tabla_storageWriteBlock s f t n contenido
  | readBlock f t n => rw [← Except.ok.inj hop]
  | flush f t => rw [← Except.ok.inj hop]
  | delete f t =>
    rw [← Except.ok.inj hop]
    exact tabla_eliminarTag s f t

end MasterOfFiles.BlockTable
