import MasterOfFiles.LockedRequests
import MasterOfFiles.RequestEffects

/-!
Which requests lock a mutex of their own a second time. Only operacion_truncate_file
does: it locks mutex_bitmap around a call that locks it, when the shrink loop brings the
count of a block other than block0000 to zero.
-/
namespace MasterOfFiles.SelfDeadlock

open BlockNames ByteBuffers StorageState StorageFiles StorageOperations
open LockedPrograms TagLookups RequestEffects

section Interbloqueo

/-- Taking links to the blocks `is` away one by one brings the count of a block other than
block0000 to zero. -/
def Agota (c : ℕ → Option ℤ) (is : List (Option ℕ)) : Prop :=
  ∃ b n, b ≠ 0 ∧ c b = some n ∧ 0 < n ∧ n ≤ is.count (some b)

theorem not_agota_nil (c : ℕ → Option ℤ) : ¬Agota c [] := by
  rintro ⟨b, n, -, -, hpos, hle⟩
  rw [List.count_nil] at hle
  omega

theorem agota_none_cons (c : ℕ → Option ℤ) (is : List (Option ℕ)) :
    Agota c (none :: is) ↔ Agota c is := by
  simp [Agota]

theorem agota_some_cons (c : ℕ → Option ℤ) (j : ℕ) (is : List (Option ℕ)) :
    Agota c (some j :: is) ↔ (c j = some 1 ∧ j ≠ 0) ∨
      Agota (fun b => if b = j then (c b).map (· + -1) else c b) is := by
  constructor
  · rintro ⟨b, n, hb, hc, hpos, hle⟩
    by_cases hbj : b = j
    · obtain rfl := hbj
      by_cases hn : n = 1
      · exact Or.inl ⟨hn ▸ hc, hb⟩
      · refine Or.inr ⟨b, n + -1, hb, by simp [hc], by omega, ?_⟩
        rw [List.count_cons_self] at hle
        omega
    · refine Or.inr ⟨b, n, hb, by simp [hbj, hc], hpos, ?_⟩
      rwa [List.count_cons_of_ne (by simpa using Ne.symm hbj)] at hle
  · rintro (⟨hc, hj⟩ | ⟨b, n, hb, hc, hpos, hle⟩)
    · refine ⟨j, 1, hj, hc, one_pos, ?_⟩
      rw [List.count_cons_self]
      omega
    · by_cases hbj : b = j
      · obtain rfl := hbj
        simp only [if_true] at hc
        obtain ⟨m, hm, rfl⟩ := Option.map_eq_some_iff.mp hc
        refine ⟨b, m, hb, hm, by omega, ?_⟩
        rw [List.count_cons_self]
        omega
      · simp only [hbj, if_false] at hc
        refine ⟨b, n, hb, hc, hpos, ?_⟩
        rwa [List.count_cons_of_ne (by simpa using Ne.symm hbj)]

variable {s : Storage} {f t : String}

def asociados (s : Storage) (b : ℕ) : Option ℤ :=
  s.listaBloquesFisicos[b]?.map BlockFisico.blogicoAsociados

/-- The last `k` logical blocks of a Tag, the last one first. -/
def ultimos (s : Storage) (f t : String) (k : ℕ) : List BlockLogico :=
  ((buscarTag s f t).elim [] Tag.listaBlockLogicos).reverse.take k

/-- Their places in the table of physical blocks. -/
def lugares (s : Storage) (bls : List BlockLogico) : List (Option ℕ) :=
  bls.map fun bl => buscarIndexBlockFisico s bl.bloqueFisicoAsociado

theorem asociados_sumarAsociados (s : Storage) (j : ℕ) (k : ℤ) (b : ℕ) :
    asociados (sumarAsociados s j k) b =
      if b = j then (asociados s b).map (· + k) else asociados s b := by
  unfold asociados sumarAsociados
  rw [List.getElem?_modify]
  by_cases hbj : b = j
  · simp [hbj, Function.comp_def]
  · simp [hbj, Ne.symm hbj]

theorem sumarAsociados_eq_cero_iff (s : Storage) (j : ℕ) :
    asociados (sumarAsociados s j (-1)) j = some 0 ↔ asociados s j = some 1 := by
  rw [asociados_sumarAsociados, if_pos rfl]
  cases asociados s j with
  | none => simp
  | some n => simp [← sub_eq_add_neg, sub_eq_zero]

theorem ultimos_quitarUltimo {tag : Tag} {bl : BlockLogico}
    (htag : buscarTag s f t = some tag)
    (hbl : tag.listaBlockLogicos.getLast? = some bl) (k : ℕ) :
    ultimos s f t (k + 1) = bl :: ultimos (modificarTag s f t quitarUltimo) f t k := by
  unfold ultimos
  rw [buscarTag_modificarTag_self s nameTag_quitarUltimo, htag]
  obtain ⟨bls, hbls⟩ := List.getLast?_eq_some_iff.mp hbl
  simp [hbls, quitarUltimo]

/-- The shrink loop never comes back when it brings a count to zero. -/
theorem achicar_interbloqueo_iff (s : Storage) (f t : String) (k : ℕ) :
    achicar s f t k = .error .interbloqueo ↔
      Agota (asociados s) (lugares s (ultimos s f t k)) := by
  induction k generalizing s with
  | zero => exact iff_of_false (by simp [achicar]) (not_agota_nil _)
  | succ k ih =>
    rw [achicar, achicarUno]
    cases hbl : (buscarTag s f t).bind fun tag => tag.listaBlockLogicos.getLast? with
    | none =>
      have hnil : ∀ n, ultimos s f t n = [] := by
        intro n
        unfold ultimos
        cases htag : buscarTag s f t with
        | none => simp
        | some tag =>
          rw [htag, Option.bind_some, List.getLast?_eq_none_iff] at hbl
          simp [hbl]
      dsimp only
      rw [ih, hnil, hnil]
    | some bl =>
      obtain ⟨tag, htag, hlast⟩ := Option.bind_eq_some_iff.mp hbl
      rw [ultimos_quitarUltimo htag hlast]
      dsimp only
      cases hindex : buscarIndexBlockFisico (modificarTag s f t quitarUltimo)
          bl.bloqueFisicoAsociado with
      | none =>
        rw [lugares, List.map_cons, show buscarIndexBlockFisico s _ = none from hindex,
          agota_none_cons]
        exact ih (modificarTag s f t quitarUltimo)
      | some j =>
        rw [lugares, List.map_cons, show buscarIndexBlockFisico s _ = some j from hindex,
          agota_some_cons]
        dsimp only
        split_ifs with hcero
        · refine iff_of_true rfl (Or.inl ⟨?_, hcero.2⟩)
          exact (sumarAsociados_eq_cero_iff _ j).mp hcero.1
        · rw [or_iff_right fun h => hcero ⟨(sumarAsociados_eq_cero_iff _ j).mpr h.1, h.2⟩]
          refine (ih _).trans (iff_of_eq ?_)
          congr 1
          · funext b
            exact asociados_sumarAsociados _ j (-1) b
          · refine List.map_congr_left fun bl' _ => ?_
            exact buscarIndex_sumarAsociados _ j (-1) _

/-- The request is a TRUNCATE that takes the last logical block of a physical block other
than block0000. -/
def SueltaBloque (sb : Superbloque) (s : Storage) : Solicitud → Prop
  | .truncate f t tamanio => ∃ tag, buscarTag s f t = some tag ∧
      toUint32 tamanio % sb.blockSize = 0 ∧ tag.metadata.estado ≠ .commited ∧
      Agota (asociados s) (lugares s (ultimos s f t
        (cantidadBloques sb tag.metadata.tamanioFile - cantidadBloques sb tamanio).toNat))
  | _ => False

theorem truncate_interbloqueo_iff (sb : Superbloque) (s : Storage) (f t : String)
    (tamanio : ℤ) : operacionTruncateFile sb s f t tamanio =
      .error .interbloqueo ↔ SueltaBloque sb s (.truncate f t tamanio) := by
  unfold operacionTruncateFile
  cases htag : buscarTag s f t with
  | none =>
    refine iff_of_false ?_ (by simp [SueltaBloque, htag])
    dsimp only
    split_ifs with hmult <;> simp
  | some tag =>
    have hsuelta : SueltaBloque sb s (.truncate f t tamanio) ↔
        toUint32 tamanio % sb.blockSize = 0 ∧ tag.metadata.estado ≠ .commited ∧
          Agota (asociados s) (lugares s (ultimos s f t
            (cantidadBloques sb tag.metadata.tamanioFile -
              cantidadBloques sb tamanio).toNat)) := by
      simp only [SueltaBloque, htag, Option.some.injEq, exists_eq_left']
    rw [hsuelta]
    dsimp only
    split_ifs with hmult hestado hlt
    · exact iff_of_false (by simp) fun h => hmult h.1
    · exact iff_of_false (by simp) fun h => h.2.1 hestado
    · refine iff_of_false ?_ fun h => ?_
      · cases hop : agrandar s f t (cantidadBloques sb tag.metadata.tamanioFile)
            (cantidadBloques sb tamanio - cantidadBloques sb tag.metadata.tamanioFile).toNat with
        | mk s' flag => cases flag <;> simp
      · rw [Int.toNat_of_nonpos (by omega)] at h
        exact not_agota_nil _ h.2.2
    · rw [← achicar_interbloqueo_iff]
      have hcond : toUint32 tamanio % sb.blockSize = 0 := not_not.mp hmult
      simp only [hcond, hestado, ne_eq, not_false_eq_true, true_and]
      cases hop : achicar s f t
          (cantidadBloques sb tag.metadata.tamanioFile - cantidadBloques sb tamanio).toNat with
      | error e => simp
      | ok s' => simp

theorem procesarBloques_ne_interbloqueo (md5 : Bytes → String) (s : Storage) (f t : String)
    (bls : List BlockLogico) :
    procesarBloques md5 f t s bls ≠ .error .interbloqueo := by
  induction bls generalizing s with
  | nil => simp [procesarBloques]
  | cons bl bls ih =>
    have hbloque : ∀ e, procesarBloqueCommit md5 f t s bl = .error e →
        e = .caida := by
      intro e he
      unfold procesarBloqueCommit at he
      dsimp only at he
      split at he
      · exact (Except.error.inj he).symm
      · split at he
        · cases he
        · split_ifs at he
    unfold procesarBloques
    cases hop : procesarBloqueCommit md5 f t s bl with
    | error e => simp [hbloque e hop]
    | ok r =>
      obtain ⟨s', bl'⟩ := r
      dsimp only
      cases hop' : procesarBloques md5 f t s' bls with
      | error e =>
        rintro ⟨⟩
        exact ih s' hop'
      | ok r' => simp

theorem interbloqueo_iff (md5 : Bytes → String) (sb : Superbloque) (s : Storage)
    (x : Solicitud) :
    atenderWorker md5 sb s x = .error .interbloqueo ↔ SueltaBloque sb s x := by
  cases x with
  | truncate f t tamanio =>
    rw [← truncate_interbloqueo_iff]
    unfold atenderWorker
    dsimp only
    cases operacionTruncateFile sb s f t tamanio with
    | error e => simp
    | ok r => simp
  | commit f t =>
    refine iff_of_false ?_ id
    unfold atenderWorker storageCommit operacionCommitTag
    dsimp only
    cases htag : buscarTag s f t with
    | none => simp
    | some tag =>
      dsimp only
      split_ifs with hestado
      · simp
      · have hbloques := procesarBloques_ne_interbloqueo md5 s f t tag.listaBlockLogicos
        cases hop : procesarBloques md5 f t s tag.listaBlockLogicos with
        | error e =>
          rintro ⟨⟩
          exact hbloques hop
        | ok r => simp
  | _ => exact iff_of_false (by simp [atenderWorker]) id

/-- The thread that serves a request never waits for a mutex of its own, and holds none when
it is done, if and only if it is not a TRUNCATE that takes a block's last logical block. -/
theorem sinInterbloqueo_iff (md5 : Bytes → String) (sb : Superbloque) (s : Storage)
    (x : Solicitud) :
    Clean .interbloqueo (LockedRequests.atenderWorker md5 sb s x) ↔ ¬SueltaBloque sb s x := by
  rw [clean_iff (LockedRequests.computes_atenderWorker md5 sb s x)]
  exact not_congr (interbloqueo_iff md5 sb s x)

/-- The only block of a:b is associated with block0001, as the index file of the disk it
was loaded from says. -/
def storageLevantado : Storage where
  listaFiles := [⟨"a", [⟨"b", ⟨2, ["1"], .workInProgress⟩, [⟨"000000.dat", "block0001"⟩]⟩]⟩]
  listaBloquesFisicos :=
    [⟨"block0000", some [48, 48], 0⟩, ⟨"block0001", some [0, 0], 1⟩]
  bitmap := [true, true, false, false, false, false, false, false]
  hashIndexConfig := [("d41d8cd9", "block0001")]
  disco :=
    { physicalBlocks := fun nombre => if nombre = "block0000" then some [48, 48]
        else if nombre = "block0001" then some [0, 0] else none
      tagDirs := fun rt => rt = ("a", "b")
      links := fun r => if r = ("a", "b", "000000.dat") then some "block0001" else none
      metadataConfig := fun rt => if rt = ("a", "b") then
        some [("TAMAÑO", "2"), ("BLOCKS", "[1]"), ("ESTADO", "WORK_IN_PROGRESS")] else none
      blocksHashIndex := [("d41d8cd9", "block0001")] }

theorem not_sinInterbloqueo : ¬Clean .interbloqueo
    (LockedRequests.atenderWorker (fun _ => "d41d8cd9") ⟨4, 2, by decide, by decide, by decide⟩
      storageLevantado (.truncate "a" "b" 0)) := by
  rw [clean_iff (LockedRequests.computes_atenderWorker _ _ _ _)]
  exact fun h => h rfl

end Interbloqueo

end MasterOfFiles.SelfDeadlock
