import MasterOfFiles.ReachableStates
import MasterOfFiles.TruncateOutcomes

/-!
Requests answered with an error. All of them but TRUNCATE look before they write
anything. TRUNCATE links blocks one by one and, when no bit is left, returns the
error with the blocks it has linked.
-/
namespace MasterOfFiles.FailedRequests

open ByteBuffers StorageState StorageFiles StorageOperations
open TagLookups BlockZero TruncateEffects TruncateOutcomes RequestEffects ReachableStates

variable {md5 : Bytes → String} {sb : Superbloque} {s s' : Storage} {f t : String}

theorem create_fallido (hop : (operacionCreateFile s f t).1 = s')
    (hcod : respuestaDe (operacionCreateFile s f t).2 = .error) : s' = s := by
  cases htag : buscarTag s f t with
  | some tag =>
    rw [create_rechazado (by rw [htag]; rfl)] at hop
    exact hop.symm
  | none =>
    obtain ⟨mc, hmc⟩ := create_eq htag
    rw [hmc] at hcod
    exact absurd hcod (by simp [respuestaDe])

theorem tag_fallido {fo tgo : String} (hop : (operacionTagFile s fo tgo f t).1 = s')
    (hcod : respuestaDe (operacionTagFile s fo tgo f t).2 = .error) : s' = s := by
  unfold operacionTagFile at hop hcod
  cases htag : buscarTag s fo tgo with
  | none =>
    rw [htag] at hop
    exact hop.symm
  | some tag =>
    rw [htag] at hcod
    exact absurd hcod (by simp [respuestaDe])

theorem commit_fallido (hop : storageCommit md5 s f t = .ok (s', .error)) : s' = s := by
  unfold storageCommit at hop
  cases hcommit : operacionCommitTag md5 s f t with
  | error e => simp [hcommit] at hop
  | ok p =>
    simp only [hcommit] at hop
    obtain ⟨rfl, hcod⟩ := Prod.mk.inj (Except.ok.inj hop)
    obtain ⟨hs, _⟩ | ⟨tag, s₁, bls, _, _, _, _, hcero⟩ := commit_pasos hcommit
    · exact hs
    · simp [hcero] at hcod

/-- No bit is free where TRUNCATE accepts the request. -/
def SinBloquesLibres (sb : Superbloque) (s : Storage) : Solicitud → Prop
  | .truncate f t tamanio => ∀ tag, Truncable sb s f t tamanio tag →
      bitmapEncontrarBloqueLibre s.bitmap = none
  | _ => True

/-- A TRUNCATE that fails has been rejected, or has run out of bits. -/
theorem truncate_fallido_iff (h : Coherente sb s) {tamanio c : ℤ} (hc : c ≠ 0)
    (hop : operacionTruncateFile sb s f t tamanio = .ok (s', c)) :
    s' = s ↔ SinBloquesLibres sb s (.truncate f t tamanio) := by
  by_cases ht : ∃ tag, Truncable sb s f t tamanio tag
  · obtain ⟨tag, ht⟩ := ht
    have hcond : SinBloquesLibres sb s (.truncate f t tamanio) ↔
        bitmapEncontrarBloqueLibre s.bitmap = none := ⟨fun hn => hn tag ht, fun hn _ _ => hn⟩
    rw [hcond]
    rcases lt_or_ge (cantidadBloques sb tag.metadata.tamanioFile) (cantidadBloques sb tamanio)
      with hlt | hle
    · obtain ⟨nombres, hlista, _, _, hagotado⟩ := agrandar_largo h ht.abierto
        (cantidadBloques sb tag.metadata.tamanioFile) (bloquesQueAgrega sb tag tamanio)
      rw [truncate_agranda_eq ht hlt] at hop
      split_ifs at hop with hfin
      · exact absurd (Prod.mk.inj (Except.ok.inj hop)).2.symm hc
      · obtain ⟨rfl, -⟩ := Prod.mk.inj (Except.ok.inj hop)
        constructor
        · intro hs
          -- the links made are in the list, so an unchanged list has none
          have hbuscar : buscarTag (agrandado sb s f t tag tamanio) f t =
              (buscarTag s f t).map (agregarBloques nombres) := by
            rw [← buscarTag_modificarTag_self s (nameTag_agregarBloques nombres) f t]
            exact buscarTag_congr hlista f t
          rw [hs, ht.existe, Option.map_some, Option.some_inj] at hbuscar
          have hlargo := congrArg (fun tag => tag.listaBlockLogicos.length) hbuscar
          simp only [listaBlockLogicos_agregarBloques, List.length_append,
            List.length_map] at hlargo
          exact hagotado (by simpa using hfin) (List.eq_nil_of_length_eq_zero (by omega))
        · intro hnone
          unfold agrandado
          rw [agrandar_agotado hlt hnone]
    · rw [truncate_achica h ht hle] at hop
      exact absurd (Prod.mk.inj (Except.ok.inj hop)).2.symm hc
  · obtain ⟨c', hop'⟩ := truncate_rechazado fun tag htag => ht ⟨tag, htag⟩
    rw [hop] at hop'
    exact iff_of_true (Prod.mk.inj (Except.ok.inj hop')).1 fun tag htag => absurd ⟨tag, htag⟩ ht

/-- A request answered with an error leaves the state as it was just when it is
not a TRUNCATE that got some of its blocks. -/
theorem fallido_sin_rastro_iff (h : Alcanzable md5 sb s) {x : Solicitud}
    (hop : atenderWorker md5 sb s x = .ok (s', .error)) : s' = s ↔ SinBloquesLibres sb s x := by
  have hcoh := coherente_alcanzable h
  cases x with
  | create f t =>
    obtain ⟨hs', hcod⟩ := Prod.mk.inj (Except.ok.inj hop)
    exact iff_of_true (create_fallido hs' hcod) trivial
  | truncate f t tamanio =>
    unfold atenderWorker at hop
    cases hres : operacionTruncateFile sb s f t tamanio with
    | error e => simp [hres] at hop
    | ok p =>
      obtain ⟨s₁, c⟩ := p
      simp only [hres] at hop
      obtain ⟨rfl, hcod⟩ := Prod.mk.inj (Except.ok.inj hop)
      refine truncate_fallido_iff hcoh ?_ hres
      rintro rfl
      exact absurd hcod (by simp [respuestaDe])
  | tag fo tgo f t =>
    obtain ⟨hs', hcod⟩ := Prod.mk.inj (Except.ok.inj hop)
    exact iff_of_true (tag_fallido hs' hcod) trivial
  | commit f t => exact iff_of_true (commit_fallido hop) trivial
  | writeBlock f t n contenido =>
    have hop' : storageWriteBlock md5 sb s f t n contenido = (s', .error) := Except.ok.inj hop
    refine iff_of_true ?_ trivial
    rcases write_casos hcoh md5 f t n contenido with hmal | ⟨_, _, _, hbien⟩
    · rw [hmal] at hop'
      exact (Prod.mk.inj hop').1.symm
    · rw [hbien] at hop'
      exact absurd (Prod.mk.inj hop').2 (by simp)
  | readBlock f t n => exact iff_of_true (Prod.mk.inj (Except.ok.inj hop)).1.symm trivial
  | flush f t => exact iff_of_true (Prod.mk.inj (Except.ok.inj hop)).1.symm trivial
  | delete f t => exact absurd (Prod.mk.inj (Except.ok.inj hop)).2 (by simp)

/-- Eight blocks of one byte, a bitmap without spare bits. -/
def superbloqueExacto : Superbloque := ⟨8, 1, by decide, by decide, superbloqueChico.int_range⟩

def estadoVacio : Storage := estadoTras hashLegible superbloqueExacto [.create "a" "b"]

theorem alcanzable_estadoVacio : Alcanzable hashLegible superbloqueExacto estadoVacio :=
  alcanzable_estadoTras hashLegible superbloqueExacto [.create "a" "b"]

/-- Nine blocks asked for where seven are free: the error comes with the seven. -/
theorem truncate_nueve : atenderWorker hashLegible superbloqueExacto estadoVacio
    (.truncate "a" "b" 9) =
      .ok (agrandado superbloqueExacto estadoVacio "a" "b" (tagNuevo "b") 9, .error) := rfl

theorem fallido_sin_rastro_iff_nueve :
    agrandado superbloqueExacto estadoVacio "a" "b" (tagNuevo "b") 9 = estadoVacio ↔
      SinBloquesLibres superbloqueExacto estadoVacio (.truncate "a" "b" 9) :=
  fallido_sin_rastro_iff alcanzable_estadoVacio truncate_nueve

theorem not_fallido_sin_rastro : ¬ ∀ md5 sb s s' x, Alcanzable md5 sb s →
    atenderWorker md5 sb s x = .ok (s', .error) → s' = s := by
  intro h
  have hs := h _ _ _ _ _ alcanzable_estadoVacio truncate_nueve
  have hbitmap := congrArg Storage.bitmap hs
  exact absurd hbitmap (by decide)

end MasterOfFiles.FailedRequests
