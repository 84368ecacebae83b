import MasterOfFiles.CommitCompleteness
import MasterOfFiles.PlainNames
import MasterOfFiles.RunTraces
import MasterOfFiles.WriteReadback

/-!
What the Storage keeps of all that is written to it. Every write goes to block0000 and
the other blocks keep their NULs, so READ_BLOCK answers NULs or the bytes of block0000.
Those are what the accepted writes of the run have left, whichever pages of whichever
Tags they were for.
-/
namespace MasterOfFiles.SharedCell

open ByteBuffers BlockNames StorageState StorageFiles StorageOperations PartialRuns RunTraces
open BlockZero RequestEffects TruncateEffects ReachableStates WriteReadback CommitCompleteness
open PlainNames

variable {md5 : Bytes → String} {sb : Superbloque} {s s' : Storage}

/-- The bytes of block0000. -/
def celda (s : Storage) : Bytes := (s.disco.physicalBlocks bloqueFisicoInicial).getD []

/-- The bytes of an accepted WRITE_BLOCK, and whether its page is linked to block0000. -/
def escrituras (md5 : Bytes → String) (sb : Superbloque) (s : Storage) :
    Solicitud → List (Bool × Bytes)
  | .writeBlock f t n contenido =>
    if (storageWriteBlock md5 sb s f t n contenido).2 = .ok then
      [(decide (enlaceDe s f t n = some bloqueFisicoInicial), contenido)]
    else []
  | _ => []

/-- What a write leaves in block0000; the bytes it does not cover come from its page. -/
def escribirCelda (sb : Superbloque) (c : Bytes) (e : Bool × Bytes) : Bytes :=
  bufferEscritura sb (if e.1 then c else List.replicate sb.blockSize 0) e.2

theorem celda_eq {b : Bytes} (h : s.disco.physicalBlocks bloqueFisicoInicial = some b) :
    celda s = b := by
  rw [celda, h, Option.getD_some]

/-- Only WRITE_BLOCK touches the files of the blocks. -/
theorem conserva_archivos (archivos : String → Option Bytes) {x : Solicitud}
    (hx : ∀ f t n contenido, x ≠ .writeBlock f t n contenido) :
    Conserva md5 sb (fun s => s.disco.physicalBlocks = archivos) x where
  crear _ _ _ _ _ _ h _ := h
  ampliar _ _ _ _ _ _ _ _ h _ _ := h
  reducir s f t _ _ _ h _ := (archivos_reducir s f t).trans h
  terminar s f t tamanio _ _ h _ := by
    obtain ⟨mc, hmc⟩ := terminarTruncate_eq s f t tamanio
    rw [hmc]
    exact h
  copiar _ _ _ _ _ _ _ _ _ h _ := h
  commitear _ _ _ _ _ _ _ _ _ h _ _ _ _ := h
  escribir _ f t n contenido _ _ heq _ _ _ := absurd heq (hx f t n contenido)
  eliminar _ _ _ _ _ _ h _ := h

/-- The page of a write holds the bytes of block0000 or NULs. -/
theorem original_de_escribible (hceros : EnCeros sb s) {f t : String} {n : ℕ} {bl : BlockLogico}
    {contenido original : Bytes} (he : Escribible sb s f t n contenido bl original) :
    original = if enlaceDe s f t n = some bloqueFisicoInicial then celda s
      else List.replicate sb.blockSize 0 := by
  have hcontenido := contenidoDe_of_escribible he
  obtain ⟨b, hlink, hb⟩ := Option.bind_eq_some_iff.mp hcontenido
  by_cases hcero : b = bloqueFisicoInicial
  · rw [hlink, if_pos (congrArg some hcero)]
    exact (celda_eq (hcero ▸ hb)).symm
  · rw [hlink, if_neg fun heq => hcero (Option.some.inj heq)]
    exact hceros b original hcero hb

/-- A request leaves in block0000 what its write, if it is one, puts there. -/
theorem celda_paso {x : Solicitud} (h : Coherente sb s) (hceros : EnCeros sb s)
    (hop : paso md5 sb s x = .ok s') :
    celda s' = (escrituras md5 sb s x).foldl (escribirCelda sb) (celda s) := by
  by_cases hx : ∃ f t n contenido, x = .writeBlock f t n contenido
  · obtain ⟨f, t, n, contenido, rfl⟩ := hx
    obtain rfl : (storageWriteBlock md5 sb s f t n contenido).1 = s' := Except.ok.inj hop
    rcases write_casos h md5 f t n contenido with herror | ⟨bl, original, he, hok⟩
    · simp [escrituras, herror]
    · have horiginal := original_de_escribible hceros he
      have hcelda : celda (escribirCero md5 sb s original contenido) =
          bufferEscritura sb original contenido := by
        apply celda_eq
        exact Function.update_self bloqueFisicoInicial _ s.disco.physicalBlocks
      simp only [escrituras, hok, if_true, List.foldl_cons, List.foldl_nil, hcelda]
      rw [horiginal]
      by_cases hcero : enlaceDe s f t n = some bloqueFisicoInicial
      · simp [escribirCelda, hcero]
      · simp [escribirCelda, hcero]
  · have hno : ∀ f t n contenido, x ≠ .writeBlock f t n contenido := fun f t n contenido heq =>
      hx ⟨f, t, n, contenido, heq⟩
    have harchivos := ((conserva_archivos s.disco.physicalBlocks hno).paso h rfl hop).2
    have hnada : escrituras md5 sb s x = [] := by
      cases x with
      | writeBlock f t n contenido => exact absurd rfl (hno f t n contenido)
      | _ => rfl
    rw [hnada, List.foldl_nil, celda, harchivos]
    rfl

/-- Block0000 holds what the accepted writes of the run have left there. -/
theorem celda_run {xs : List Solicitud} (h : run (paso md5 sb) (freshStart sb) xs = .ok s) :
    celda s = (outputs (paso md5 sb) (escrituras md5 sb) (freshStart sb) xs).foldl
      (escribirCelda sb) (celda (freshStart sb)) := by
  have hstep : ∀ s x s', Coherente sb s ∧ EnCeros sb s → paso md5 sb s x = .ok s' →
      (Coherente sb s' ∧ EnCeros sb s') ∧
        celda s' = (escrituras md5 sb s x).foldl (escribirCelda sb) (celda s) := by
    intro s x s' hs hop
    exact ⟨(conserva_enCeros x).paso hs.1 hs.2 hop, celda_paso hs.1 hs.2 hop⟩
  exact foldl_outputs hstep ⟨coherente_freshStart sb, enCeros_freshStart sb⟩ h

theorem celda_freshStart (sb : Superbloque) :
    celda (freshStart sb) = List.replicate sb.blockSize 48 := by
  obtain ⟨mc, hmc⟩ := freshStart_eq sb
  rw [hmc]
  refine celda_eq ?_
  change archivosIniciales sb (cantBlock sb) bloqueFisicoInicial = _
  rw [← nombreBloqueFisico_zero, archivosIniciales_nombre sb (cantBlock_pos sb)]
  rfl

/-- What READ_BLOCK answers from a page, by the block it is linked to. -/
def respuestaDePagina (sb : Superbloque) (c : Bytes) : Option String → Respuesta
  | none => .error
  | some b => .bloque (if b = bloqueFisicoInicial then c else List.replicate sb.blockSize 0)

/-- In every run of plain requests from a fresh start, one at a time, READ_BLOCK answers
NULs, or what all the accepted writes of the run, to whatever pages, have left in one
block. -/
theorem storageReadBlock_run (md5 : Bytes → String) (sb : Superbloque) {raiz : Bytes}
    (xs : List (Pedido raiz)) (h : run (paso md5 sb) (freshStart sb) xs.unattach = .ok s)
    (f t : String) (n : ℤ) :
    storageReadBlock sb s f t n =
      if n < 0 then .error
      else respuestaDePagina sb
        ((outputs (paso md5 sb) (escrituras md5 sb) (freshStart sb) xs.unattach).foldl
          (escribirCelda sb) (List.replicate sb.blockSize 48)) (enlaceDe s f t n.toNat) := by
  have halcanza : Alcanzable md5 sb s := ⟨xs.unattach, h⟩
  have hcoh := coherente_alcanzable halcanza
  rw [← celda_freshStart, ← celda_run h, storageReadBlock_eq hcoh]
  congr 1
  unfold contenidoDe
  cases hlink : enlaceDe s f t n.toNat with
  | none => rfl
  | some b =>
    rw [Option.bind_some]
    by_cases hcero : b = bloqueFisicoInicial
    · obtain ⟨c, hc, -⟩ := hcoh.archivo_cero
      rw [hcero, hc]
      simp [respuestaDePagina, celda_eq hc]
    · obtain ⟨bl, -, hr⟩ := Option.bind_eq_some_iff.mp hlink
      obtain ⟨c, -, hc, -⟩ := hcoh.getContenido_of_link hr
      rw [hc, enCeros_alcanzable halcanza b c hcero hc]
      simp [respuestaDePagina, hcero]

/-- A page that is written, the first Tag of the Storage, and what both answer. -/
def pedidosCelda : List (Pedido raizChica) :=
  [Solicitud.create "a" "b", .truncate "a" "b" 2, .writeBlock "a" "b" 0 [88]].attachWith
    (Llana raizChica) (by decide)

theorem storageReadBlock_run_celda :
    storageReadBlock superbloqueChico
      (estadoTras hashLegible superbloqueChico pedidosCelda.unattach) "initial_file" "BASE" 0 =
        .bloque [88, 0] :=
  storageReadBlock_run hashLegible superbloqueChico pedidosCelda rfl "initial_file" "BASE" 0

end MasterOfFiles.SharedCell
