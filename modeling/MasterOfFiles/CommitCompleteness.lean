import MasterOfFiles.CommittedTags

/-!
What COMMIT deduplicates. It compares the block that the index has for a hash with
the one that memory has for the logical block, and both are always block0000, so it
moves no link. Two equal blocks share a physical block afterwards just when they did
before, and all blocks but block0000 hold NULs.
-/
namespace MasterOfFiles.CommitCompleteness

open BlockNames ByteBuffers StorageState StorageFiles StorageOperations PartialRuns TagLookups
open BlockZero TruncateEffects RequestEffects ReachableStates CommittedTags

variable {md5 : Bytes → String} {sb : Superbloque} {s s' : Storage} {f t : String}

section Ceros

/-- The blocks that WRITE_BLOCK never reaches. -/
def EnCeros (sb : Superbloque) (s : Storage) : Prop :=
  ∀ b c, b ≠ bloqueFisicoInicial → s.disco.physicalBlocks b = some c →
    c = List.replicate sb.blockSize 0

theorem enCeros_congr (h : EnCeros sb s)
    (harchivos : s'.disco.physicalBlocks = s.disco.physicalBlocks) : EnCeros sb s' := by
  intro b c hb hc
  rw [harchivos] at hc
  exact h b c hb hc

theorem archivos_reducir (s : Storage) (f t : String) :
    (reducir s f t).disco.physicalBlocks = s.disco.physicalBlocks := by
  unfold reducir
  split <;> rfl

theorem conserva_enCeros (x : Solicitud) : Conserva md5 sb (EnCeros sb) x where
  crear _ _ _ _ _ _ hceros _ := enCeros_congr hceros rfl
  ampliar _ _ _ _ _ _ _ _ hceros _ _ := enCeros_congr hceros rfl
  reducir s f t _ _ _ hceros _ := enCeros_congr hceros (archivos_reducir s f t)
  terminar s f t tamanio _ _ hceros _ := by
    obtain ⟨mc, hmc⟩ := terminarTruncate_eq s f t tamanio
    rw [hmc]
    exact enCeros_congr hceros rfl
  copiar _ _ _ _ _ _ _ _ _ hceros _ := enCeros_congr hceros rfl
  commitear _ _ _ _ _ _ _ _ _ hceros _ _ _ _ := enCeros_congr hceros rfl
  escribir s f t n contenido bl original _ _ hceros _ := by
    intro b c hb hc
    change Function.update s.disco.physicalBlocks bloqueFisicoInicial _ b = some c at hc
    rw [Function.update_of_ne hb] at hc
    exact hceros b c hb hc
  eliminar _ _ _ _ _ _ hceros _ := enCeros_congr hceros rfl

theorem enCeros_freshStart (sb : Superbloque) : EnCeros sb (freshStart sb) := by
  obtain ⟨mc, hmc⟩ := freshStart_eq sb
  intro b c hb hc
  rw [hmc] at hc
  change archivosIniciales sb (cantBlock sb) b = some c at hc
  have hsome : (archivosIniciales sb (cantBlock sb) b).isSome := by
    rw [hc]
    rfl
  obtain ⟨k, hk, rfl⟩ := archivosIniciales_isSome sb hsome
  rw [archivosIniciales_nombre sb hk] at hc
  have hne : k ≠ 0 := fun hzero => hb ((nombreBloqueFisico_eq_inicial_iff k).mpr hzero)
  rw [← Option.some.inj hc, contenidoInicial, if_neg hne]

theorem enCeros_alcanzable (h : Alcanzable md5 sb s) : EnCeros sb s := by
  have hinv : Coherente sb s ∧ EnCeros sb s :=
    run_invariant (fun _ x _ hs hop => (conserva_enCeros x).paso hs.1 hs.2 hop)
      ⟨coherente_freshStart sb, enCeros_freshStart sb⟩ h
  exact hinv.2

end Ceros

section Rutas

/-- The paths of the Tag's logical blocks. -/
def rutasDe (s : Storage) (f t : String) : List RutaBlock :=
  match buscarTag s f t with
  | none => []
  | some tag => tag.listaBlockLogicos.map fun bl => rutaBlockLogico f t bl.nombreBlock

/-- What COMMIT leaves of links, files and blocks. -/
structure SinMover (s s' : Storage) : Prop where
  links : s'.disco.links = s.disco.links
  archivos : s'.disco.physicalBlocks = s.disco.physicalBlocks
  rutas : ∀ f t, rutasDe s' f t = rutasDe s f t

theorem SinMover.getContenido (h : SinMover s s') (r : RutaBlock) :
    s'.disco.getContenido r = s.disco.getContenido r := by
  rw [Disco.getContenido, Disco.getContenido, h.links, h.archivos]

theorem sinMover_commiteado {tag : Tag} (htag : buscarTag s f t = some tag)
    (index guardado : ConfigText.Config) (mc : RutaTag → Option ConfigText.Config) :
    SinMover s (commiteado s f t tag index guardado mc) := by
  refine ⟨rfl, rfl, fun f' t' => ?_⟩
  have hname := nameTag_commitear tag.listaBlockLogicos
  rcases eq_or_ne (rutaTag f' t') (rutaTag f t) with heq | hne
  · obtain ⟨rfl, rfl⟩ := Prod.mk.inj heq
    have hself : buscarTag (commiteado s f' t' tag index guardado mc) f' t' =
        some (commitear tag.listaBlockLogicos tag) := by
      refine (buscarTag_modificarTag_self _ hname f' t').trans ?_
      change (buscarTag s f' t').map _ = _
      rw [htag, Option.map_some]
    unfold rutasDe
    rw [hself, htag]
    rfl
  · have hother : buscarTag (commiteado s f t tag index guardado mc) f' t' =
        buscarTag s f' t' := buscarTag_modificarTag_ne _ hname hne
    unfold rutasDe
    rw [hother]

/-- COMMIT finds in the index what memory has, and moves nothing. -/
theorem sinMover_commit (h : Coherente sb s) {c : ℤ}
    (hop : operacionCommitTag md5 s f t = .ok (s', c)) : SinMover s s' := by
  rcases commit_casos h hop with rfl | ⟨tag, index, guardado, mc, htag, _, _, _, rfl⟩
  · exact ⟨rfl, rfl, fun _ _ => rfl⟩
  · exact sinMover_commiteado htag index guardado mc

end Rutas

section Historia

/-- The request is no WRITE_BLOCK to the Tag that is answered OK. -/
def SinEscritura (md5 : Bytes → String) (sb : Superbloque) (f t : String) (s : Storage)
    (x : Solicitud) : Prop :=
  ∀ n contenido, x = .writeBlock f t n contenido →
    (storageWriteBlock md5 sb s f t n contenido).2 ≠ .ok

/-- The Tag is committed by the last of the requests, or by the fresh start. -/
def RecienCommiteado (md5 : Bytes → String) (sb : Superbloque) (xs : List Solicitud)
    (f t : String) : Prop :=
  (xs = [] ∧ Cerrado (freshStart sb) f t) ∨
    ∃ ys s s', xs = ys ++ [.commit f t] ∧ run (paso md5 sb) (freshStart sb) ys = .ok s ∧
      operacionCommitTag md5 s f t = .ok (s', 0)

/-- The Tag was committed in the run and is so now, and it has not been written since. -/
def CommiteadoIntacto (md5 : Bytes → String) (sb : Superbloque) (xs : List Solicitud)
    (s : Storage) (f t : String) : Prop :=
  Cerrado s f t ∧ ∃ ys zs s₁, xs = ys ++ zs ∧ RecienCommiteado md5 sb ys f t ∧
    run (paso md5 sb) (freshStart sb) ys = .ok s₁ ∧
    EachStep (paso md5 sb) (SinEscritura md5 sb f t) s₁ zs

end Historia

section Completitud

/-- The Tags whose blocks a COMMIT of `f:t` has to compare with those of `f:t`. -/
def Comparable (antes : String → String → Prop) (f t f' t' : String) : Prop :=
  (f' = f ∧ t' = t) ∨ antes f' t'

/-- After COMMIT equal blocks share a physical block, and a physical block without
logical blocks is free if it had one. -/
structure Deduplicado (antes : String → String → Prop) (s s' : Storage) (f t : String) :
    Prop where
  compartidos : ∀ f' t', Comparable antes f t f' t' →
    ∀ r ∈ rutasDe s' f t, ∀ r' ∈ rutasDe s' f' t', ∀ c, s'.disco.getContenido r = some c →
      s'.disco.getContenido r' = some c → s'.disco.links r = s'.disco.links r'
  libres : ∀ k, (∃ r, s.disco.links r = some (nombreBloqueFisico k)) →
    (∀ r, s'.disco.links r ≠ some (nombreBloqueFisico k)) → s'.bitmap[k]? = some false

/-- Of two logical blocks one is linked to block0000, and where the other is not,
block0000 holds more than NULs. -/
def SinRepetidos (antes : String → String → Prop) (sb : Superbloque) (s : Storage)
    (f t : String) : Prop :=
  ∀ f' t', Comparable antes f t f' t' → ∀ r ∈ rutasDe s f t, ∀ r' ∈ rutasDe s f' t', r ≠ r' →
    ∀ b b', s.disco.links r = some b → s.disco.links r' = some b' →
      (b = bloqueFisicoInicial ∨ b' = bloqueFisicoInicial) ∧
        (b ≠ b' → s.disco.physicalBlocks bloqueFisicoInicial ≠
          some (List.replicate sb.blockSize 0))

variable {antes : String → String → Prop}

/-- What a block that is not block0000 reads. -/
theorem getContenido_ceros (h : Alcanzable md5 sb s) {r : RutaBlock} {b : String}
    (hlink : s.disco.links r = some b) (hb : b ≠ bloqueFisicoInicial) :
    s.disco.getContenido r = some (List.replicate sb.blockSize 0) := by
  have hcoh := coherente_alcanzable h
  obtain ⟨k, hk, rfl, _⟩ := hcoh.enlace_ocupado r b hlink
  obtain ⟨c, hc, _⟩ := hcoh.archivo k hk
  have hceros := enCeros_alcanzable h _ c hb hc
  rw [Disco.getContenido, hlink, Option.bind_some, hc, hceros]

theorem deduplicado_of_sinRepetidos (h : Alcanzable md5 sb s) (hmover : SinMover s s')
    (hsin : SinRepetidos antes sb s f t) : Deduplicado antes s s' f t := by
  constructor
  · intro f' t' hcomp r hr r' hr' c hc hc'
    rw [hmover.rutas] at hr hr'
    rw [hmover.getContenido] at hc hc'
    rw [hmover.links]
    by_contra hne
    obtain ⟨b, hlink, _⟩ := Option.bind_eq_some_iff.mp hc
    obtain ⟨b', hlink', _⟩ := Option.bind_eq_some_iff.mp hc'
    have hrne : r ≠ r' := fun heq => hne (congrArg s.disco.links heq)
    have hbne : b ≠ b' := by
      rintro rfl
      exact hne (hlink.trans hlink'.symm)
    obtain ⟨hcero, hdistinto⟩ := hsin f' t' hcomp r hr r' hr' hrne b b' hlink hlink'
    apply hdistinto hbne
    rcases hcero with rfl | rfl
    · rw [getContenido_ceros h hlink' hbne.symm] at hc'
      rw [Disco.getContenido, hlink, Option.bind_some] at hc
      exact hc.trans hc'.symm
    · rw [getContenido_ceros h hlink hbne] at hc
      rw [Disco.getContenido, hlink', Option.bind_some] at hc'
      exact hc'.trans hc.symm
  · rintro k ⟨r, hr⟩ hsuelto
    exact absurd (hmover.links ▸ hr) (hsuelto r)

theorem sinRepetidos_of_deduplicado (h : Alcanzable md5 sb s) (hmover : SinMover s s')
    (hded : Deduplicado antes s s' f t) : SinRepetidos antes sb s f t := by
  intro f' t' hcomp r hr r' hr' hrne b b' hlink hlink'
  have higual : ∀ c, s.disco.getContenido r = some c → s.disco.getContenido r' = some c →
      b = b' := by
    intro c hc hc'
    rw [← hmover.rutas] at hr hr'
    rw [← hmover.getContenido] at hc hc'
    have hshare := hded.compartidos f' t' hcomp r hr r' hr' c hc hc'
    rw [hmover.links, hlink, hlink'] at hshare
    exact Option.some.inj hshare
  constructor
  · by_contra hcero
    obtain ⟨hb, hb'⟩ := not_or.mp hcero
    have heq := higual _ (getContenido_ceros h hlink hb) (getContenido_ceros h hlink' hb')
    rw [← heq] at hlink'
    exact hrne ((coherente_alcanzable h).enlace_unico r r' b hlink hlink' hb)
  · intro hbne hcero
    have hlee : ∀ r₁ b₁, s.disco.links r₁ = some b₁ →
        s.disco.getContenido r₁ = some (List.replicate sb.blockSize 0) := by
      intro r₁ b₁ hlink₁
      rcases eq_or_ne b₁ bloqueFisicoInicial with rfl | hb₁
      · rw [Disco.getContenido, hlink₁, Option.bind_some, hcero]
      · exact getContenido_ceros h hlink₁ hb₁
    exact hbne (higual _ (hlee r b hlink) (hlee r' b' hlink'))

/-- COMMIT deduplicates just when there is nothing for it to move. -/
theorem deduplicado_commit_iff {xs : List Solicitud}
    (hrun : run (paso md5 sb) (freshStart sb) xs = .ok s)
    (hop : operacionCommitTag md5 s f t = .ok (s', 0)) :
    Deduplicado (CommiteadoIntacto md5 sb xs s) s s' f t ↔
      SinRepetidos (CommiteadoIntacto md5 sb xs s) sb s f t := by
  have h : Alcanzable md5 sb s := ⟨xs, hrun⟩
  have hmover := sinMover_commit (coherente_alcanzable h) hop
  exact ⟨sinRepetidos_of_deduplicado h hmover, deduplicado_of_sinRepetidos h hmover⟩

end Completitud

section Ejemplo

def solicitudesDosBloques : List Solicitud := [.create "a" "b", .truncate "a" "b" 4]

/-- A Tag of two blocks that have not been written. -/
def estadoDosBloques : Storage := estadoTras hashLegible superbloqueChico solicitudesDosBloques

theorem run_estadoTras {xs : List Solicitud}
    (hok : (run (paso md5 sb) (freshStart sb) xs).isOk = true) :
    run (paso md5 sb) (freshStart sb) xs = .ok (estadoTras md5 sb xs) := by
  unfold estadoTras
  cases hrun : run (paso md5 sb) (freshStart sb) xs with
  | ok s => rfl
  | error e =>
    rw [hrun] at hok
    cases hok

def commitDosBloques : Storage :=
  match operacionCommitTag hashLegible estadoDosBloques "a" "b" with
  | .ok p => p.1
  | .error _ => estadoDosBloques

theorem commit_dosBloques : operacionCommitTag hashLegible estadoDosBloques "a" "b" =
    .ok (commitDosBloques, 0) := by
  have hok : (operacionCommitTag hashLegible estadoDosBloques "a" "b").map Prod.snd = .ok 0 := by
    decide
  unfold commitDosBloques
  cases hop : operacionCommitTag hashLegible estadoDosBloques "a" "b" with
  | ok p =>
    rw [hop] at hok
    obtain ⟨s', c⟩ := p
    obtain rfl : c = 0 := Except.ok.inj hok
    rfl
  | error e =>
    rw [hop] at hok
    cases hok

theorem deduplicado_commit_iff_dosBloques :
    Deduplicado (CommiteadoIntacto hashLegible superbloqueChico solicitudesDosBloques
        estadoDosBloques) estadoDosBloques commitDosBloques "a" "b" ↔
      SinRepetidos (CommiteadoIntacto hashLegible superbloqueChico solicitudesDosBloques
        estadoDosBloques) superbloqueChico estadoDosBloques "a" "b" :=
  deduplicado_commit_iff (run_estadoTras (by decide)) commit_dosBloques

/-- The two blocks are equal and stay linked to block0001 and block0002. -/
theorem not_deduplicado_commit :
    ¬ ∀ (md5 : Bytes → String) (sb : Superbloque) (xs : List Solicitud) (s s' : Storage)
      (f t : String), run (paso md5 sb) (freshStart sb) xs = .ok s →
      operacionCommitTag md5 s f t = .ok (s', 0) →
      Deduplicado (CommiteadoIntacto md5 sb xs s) s s' f t := by
  intro h
  have hded := h _ _ _ _ _ _ _ (run_estadoTras (by decide)) commit_dosBloques
  have hshare := hded.compartidos "a" "b" (Or.inl ⟨rfl, rfl⟩)
    (rutaBlockLogico "a" "b" "000000.dat") (by decide)
    (rutaBlockLogico "a" "b" "000001.dat") (by decide) [0, 0] (by decide) (by decide)
  exact absurd hshare (by decide)

end Ejemplo

end MasterOfFiles.CommitCompleteness
