import Mathlib.Data.Bool.Count
import MasterOfFiles.PlainNames
import MasterOfFiles.ReachableStates
import MasterOfFiles.RunTraces
import MasterOfFiles.TruncateOutcomes

/-!
How many blocks a Storage has to give. A block that TRUNCATE takes stays taken:
neither a later TRUNCATE nor DELETE clears its bit. So the blocks of a Storage are
what all its growing TRUNCATEs share, however much is shrunk or deleted in between.
-/
namespace MasterOfFiles.BlockBudget

open ByteBuffers StorageState StorageFiles StorageOperations PartialRuns RunTraces
open TagLookups BlockZero RequestEffects TruncateEffects TruncateOutcomes ReachableStates
open PlainNames

variable {md5 : Bytes → String} {sb : Superbloque} {s s' : Storage} {f t : String}

/-- The blocks whose bits are set. -/
def ocupados (sb : Superbloque) (s : Storage) : ℕ := (s.bitmap.take (cantBlock sb)).count true

/-- The logical blocks of a File:Tag; none if it does not exist. -/
def largo (s : Storage) (f t : String) : ℕ :=
  (buscarTag s f t).elim 0 fun tag => tag.listaBlockLogicos.length

/-- The logical blocks a TRUNCATE adds. -/
def agregados (md5 : Bytes → String) (sb : Superbloque) (s : Storage) : Solicitud → List ℕ
  | .truncate f t tamanio => match paso md5 sb s (.truncate f t tamanio) with
    | .ok s' => [largo s' f t - largo s f t]
    | .error _ => []
  | _ => []

theorem largo_eq {tag : Tag} (h : buscarTag s f t = some tag) :
    largo s f t = tag.listaBlockLogicos.length := by
  rw [largo, h]
  rfl

section Truncate

theorem ocupados_add_libres (sb : Superbloque) (s : Storage) :
    ocupados sb s + (s.bitmap.take (cantBlock sb)).count false =
      min (cantBlock sb) s.bitmap.length := by
  rw [← List.length_take]
  exact List.count_true_add_count_false _

/-- A block that is linked costs a bit. -/
theorem ocupados_ampliar {nro : ℤ} {k : ℕ} (ha : Ampliable sb s f t nro k) :
    ocupados sb (ampliar s f t nro k) = ocupados sb s + 1 := by
  have hocupar := count_ocupar (bit_of_libre ha.libre) ha.menor
  have hlength : (ampliar s f t nro k).bitmap.length = s.bitmap.length := List.length_set
  have hantes := ocupados_add_libres sb s
  have hdespues := ocupados_add_libres sb (ampliar s f t nro k)
  rw [hlength] at hdespues
  change ocupados sb (ampliar s f t nro k) +
    ((bitmapMarcarBloqueOcupado s.bitmap k).take (cantBlock sb)).count false = _ at hdespues
  omega

theorem largo_ampliar (h : Abierto s f t) (nro : ℤ) (k : ℕ) :
    largo (ampliar s f t nro k) f t = largo s f t + 1 := by
  obtain ⟨tag, htag, -⟩ := h
  have hnuevo := buscarTag_ampliar_self s f t nro k
  rw [htag, Option.map_some] at hnuevo
  rw [largo_eq hnuevo, largo_eq htag]
  exact List.length_append

theorem largo_terminar (s : Storage) (f t : String) (tamanio : ℤ) :
    largo (terminarTruncate s f t tamanio) f t = largo s f t := by
  rw [largo, buscarTag_terminarTruncate_self]
  cases htag : buscarTag s f t with
  | none => simp [largo, htag]
  | some tag => simp [largo, htag, fijarTamanio]

theorem ocupados_terminar (sb : Superbloque) (s : Storage) (f t : String) (tamanio : ℤ) :
    ocupados sb (terminarTruncate s f t tamanio) = ocupados sb s := by
  obtain ⟨mc, hmc⟩ := terminarTruncate_eq s f t tamanio
  rw [hmc]
  rfl

theorem largo_reducirVeces_le (s : Storage) (f t : String) (n : ℕ) :
    largo (reducirVeces s f t n) f t ≤ largo s f t := by
  have hlista := buscarTag_congr (listaFiles_reducirVeces s f t n) f t
  rw [largo, hlista, buscarTag_modificarTag_self s (nameTag_quitarBloques n)]
  cases htag : buscarTag s f t with
  | none => simp
  | some tag => simp [largo, htag, quitarBloques]

/-- The bits a growth loop sets are the blocks it adds. -/
theorem ocupados_agrandar (h : Coherente sb s) (habierto : Abierto s f t) (n : ℕ) (nro : ℤ) :
    ocupados sb (agrandar s f t nro n).1 + largo s f t =
      ocupados sb s + largo (agrandar s f t nro n).1 f t := by
  have hstep : ∀ s₁ nro k, Coherente sb s₁ → Abierto s₁ f t →
      ocupados sb s₁ + largo s f t = ocupados sb s + largo s₁ f t → Ampliable sb s₁ f t nro k →
      ocupados sb (ampliar s₁ f t nro k) + largo s f t =
        ocupados sb s + largo (ampliar s₁ f t nro k) f t := by
    intro s₁ nro k _ h₁ hQ ha
    rw [ocupados_ampliar ha, largo_ampliar h₁]
    omega
  exact (agrandar_regla
    (Q := fun s₁ => ocupados sb s₁ + largo s f t = ocupados sb s + largo s₁ f t)
    h habierto rfl hstep n nro).2.2

theorem ocupados_truncate (h : Coherente sb s) {tamanio c : ℤ}
    (hop : operacionTruncateFile sb s f t tamanio = .ok (s', c)) :
    ocupados sb s' = ocupados sb s + (largo s' f t - largo s f t) := by
  rcases truncate_casos h hop with ⟨rfl, -⟩ | ⟨tag, ht, ⟨-, hs'⟩ | ⟨-, rfl⟩⟩
  · omega
  · have hbits := ocupados_agrandar h ht.abierto (bloquesQueAgrega sb tag tamanio)
      (cantidadBloques sb tag.metadata.tamanioFile)
    have hcrece : ocupados sb s ≤ ocupados sb (agrandado sb s f t tag tamanio) := by
      refine (agrandar_regla (Q := fun s₁ => ocupados sb s ≤ ocupados sb s₁) h ht.abierto le_rfl
        ?_ _ _).2.2
      intro s₁ nro k _ _ hQ ha
      rw [ocupados_ampliar ha]
      omega
    change ocupados sb (agrandado sb s f t tag tamanio) + largo s f t =
      ocupados sb s + largo (agrandado sb s f t tag tamanio) f t at hbits
    rcases hs' with rfl | rfl
    · omega
    · rw [ocupados_terminar, largo_terminar]
      omega
  · have hbits := bitmap_reducirVeces s f t (bloquesQueLibera sb tag tamanio)
    have hle := largo_reducirVeces_le s f t (bloquesQueLibera sb tag tamanio)
    rw [ocupados_terminar, largo_terminar, ocupados, hbits, ← ocupados]
    omega

end Truncate

section Corrida

/-- Only TRUNCATE touches the bits. -/
theorem conserva_bitmap (bitmap : List Bool) {x : Solicitud}
    (hx : ∀ f t tamanio, x ≠ .truncate f t tamanio) :
    Conserva md5 sb (fun s => s.bitmap = bitmap) x where
  crear _ _ _ _ _ _ h _ := h
  ampliar _ f t tamanio _ _ heq _ _ _ _ := absurd heq (hx f t tamanio)
  reducir _ f t tamanio heq _ _ _ := absurd heq (hx f t tamanio)
  terminar _ f t tamanio heq _ _ _ := absurd heq (hx f t tamanio)
  copiar s _ _ f _ _ _ _ _ h _ := (congrArg Storage.bitmap (asegurarFile_eq s f)).trans h
  commitear _ _ _ _ _ _ _ _ _ h _ _ _ _ := h
  escribir _ _ _ _ _ _ _ _ _ h _ := h
  eliminar _ _ _ _ _ _ h _ := h

theorem ocupados_paso {x : Solicitud} (h : Coherente sb s) (hop : paso md5 sb s x = .ok s') :
    ocupados sb s' = (agregados md5 sb s x).foldl (· + ·) (ocupados sb s) := by
  by_cases hx : ∃ f t tamanio, x = .truncate f t tamanio
  · obtain ⟨f, t, tamanio, rfl⟩ := hx
    obtain ⟨c, htruncate⟩ := paso_truncate hop
    simp only [agregados, hop, List.foldl_cons, List.foldl_nil]
    exact ocupados_truncate h htruncate
  · have hno : ∀ f t tamanio, x ≠ .truncate f t tamanio := fun f t tamanio heq =>
      hx ⟨f, t, tamanio, heq⟩
    have hbits := ((conserva_bitmap s.bitmap hno).paso h rfl hop).2
    have hnada : agregados md5 sb s x = [] := by
      cases x with
      | truncate f t tamanio => exact absurd rfl (hno f t tamanio)
      | _ => rfl
    rw [hnada, List.foldl_nil, ocupados, hbits, ocupados]

/-- A list whose first entry alone is set holds one that is set. -/
theorem count_solo_primero {bits : List Bool} {n : ℕ} (hn : 0 < n)
    (h : ∀ k, bits[k]? = some true ↔ k = 0) : (bits.take n).count true = 1 := by
  obtain ⟨n, rfl⟩ : ∃ m, n = m + 1 := Nat.exists_eq_add_one_of_ne_zero (by omega)
  cases bits with
  | nil => exact absurd ((h 0).mpr rfl) (by simp)
  | cons b bits =>
    obtain rfl : b = true := by simpa using (h 0).mpr rfl
    have hresto : true ∉ bits.take n := by
      intro hmem
      obtain ⟨k, hk⟩ := List.mem_iff_getElem?.mp (List.mem_of_mem_take hmem)
      have hcero := (h (k + 1)).mp hk
      omega
    rw [List.take_succ_cons, List.count_cons_self, List.count_eq_zero_of_not_mem hresto]

theorem ocupados_freshStart (sb : Superbloque) : ocupados sb (freshStart sb) = 1 := by
  obtain ⟨mc, hmc⟩ := freshStart_eq sb
  rw [hmc]
  exact count_solo_primero (cantBlock_pos sb) (bitmapFreshStart_iff (cantBlock_pos sb))

/-- In every run of plain requests from a fresh start, one at a time, the bits set are
block0000's and one for each logical block a TRUNCATE ever added, so all the TRUNCATEs of a
run add fewer blocks than there are, whatever is shrunk or deleted between them. -/
theorem agregados_run (md5 : Bytes → String) (sb : Superbloque) {raiz : Bytes}
    (xs : List (Pedido raiz)) (h : run (paso md5 sb) (freshStart sb) xs.unattach = .ok s) :
    ocupados sb s =
        1 + (outputs (paso md5 sb) (agregados md5 sb) (freshStart sb) xs.unattach).sum ∧
      (outputs (paso md5 sb) (agregados md5 sb) (freshStart sb) xs.unattach).sum <
        cantBlock sb := by
  have hfold : ocupados sb s = _ := foldl_outputs
    (fun s x s' hs hop => ⟨coherente_paso hs hop, ocupados_paso hs hop⟩)
    (coherente_freshStart sb) h
  have hocupados : ocupados sb s =
      1 + (outputs (paso md5 sb) (agregados md5 sb) (freshStart sb) xs.unattach).sum := by
    rw [hfold, ocupados_freshStart, List.sum_eq_foldl]
    change List.foldl (· + ·) (1 + 0) _ = _
    exact List.foldl_assoc
  have hle := ocupados_add_libres sb s
  exact ⟨hocupados, by omega⟩

/-- Three blocks are all there is for a Tag that grows, shrinks and is deleted. -/
def pedidosAgotan : List (Pedido raizChica) :=
  [Solicitud.create "a" "b", .truncate "a" "b" 4, .truncate "a" "b" 0, .delete "a" "b",
    .create "c" "d", .truncate "c" "d" 6].attachWith (Llana raizChica) (by decide)

theorem agregados_run_agotan :
    ocupados superbloqueChico
        (estadoTras hashLegible superbloqueChico pedidosAgotan.unattach) = 1 + 3 ∧
      3 < cantBlock superbloqueChico :=
  agregados_run hashLegible superbloqueChico pedidosAgotan rfl

end Corrida

end MasterOfFiles.BlockBudget
