import MasterOfFiles.RequestEffects

/-!
The state a fresh start leaves, and the invariant in every state the Storage
reaches from it. The first part computes the fresh start; the second goes over
the requests one by one.
-/
namespace MasterOfFiles.ReachableStates

open KeyedLists ByteBuffers ConfigText BlockNames StorageState StorageFiles StorageOperations
open PartialRuns TagLookups BlockZero TruncateEffects RequestEffects

variable {md5 : Bytes → String} {sb : Superbloque} {s s' : Storage} {f t : String}

section Inicio

def bloqueInicial (sb : Superbloque) (i : ℕ) : BlockFisico :=
  ⟨nombreBloqueFisico i, some (contenidoInicial sb i), 0⟩

def archivosIniciales (sb : Superbloque) (n : ℕ) : String → Option Bytes :=
  (List.range n).foldl
    (fun p i => Function.update p (nombreBloqueFisico i) (some (contenidoInicial sb i)))
    fun _ => none

theorem archivosIniciales_succ (sb : Superbloque) (n : ℕ) :
    archivosIniciales sb (n + 1) = Function.update (archivosIniciales sb n) (nombreBloqueFisico n)
      (some (contenidoInicial sb n)) := by
  unfold archivosIniciales
  rw [List.range_succ, List.foldl_append]
  rfl

theorem archivosIniciales_nombre (sb : Superbloque) {n k : ℕ} (hk : k < n) :
    archivosIniciales sb n (nombreBloqueFisico k) = some (contenidoInicial sb k) := by
  induction n with
  | zero => omega
  | succ n ih =>
    rw [archivosIniciales_succ]
    rcases eq_or_ne k n with rfl | hne
    · exact Function.update_self ..
    · rw [Function.update_of_ne (nombreBloqueFisico_injective.ne hne)]
      exact ih (by omega)

theorem archivosIniciales_isSome (sb : Superbloque) {n : ℕ} {nombre : String}
    (h : (archivosIniciales sb n nombre).isSome) : ∃ k < n, nombre = nombreBloqueFisico k := by
  induction n with
  | zero => simp [archivosIniciales] at h
  | succ n ih =>
    rw [archivosIniciales_succ] at h
    rcases eq_or_ne nombre (nombreBloqueFisico n) with hname | hname
    · exact ⟨n, by omega, hname⟩
    · rw [Function.update_of_ne hname] at h
      obtain ⟨k, hk, hname⟩ := ih h
      exact ⟨k, by omega, hname⟩

theorem iniciarBloques_eq (sb : Superbloque) (bitmap : List Bool) (n : ℕ) :
    (List.range n).foldl (iniciarBloqueFisico sb) ⟨[], [], bitmap, [], discoVacio⟩ =
      ⟨[], (List.range n).map (bloqueInicial sb), bitmap, [],
        { discoVacio with physicalBlocks := archivosIniciales sb n }⟩ := by
  induction n with
  | zero => rfl
  | succ n ih =>
    rw [List.range_succ, List.foldl_append, ih, archivosIniciales_succ, List.map_append]
    simp only [List.foldl_cons, List.foldl_nil, iniciarBloqueFisico, List.map_cons, List.map_nil,
      Disco.escribirArchivoTruncado, Function.update_self]
    rfl

def tagInicial (sb : Superbloque) : Tag :=
  ⟨"BASE", ⟨sb.blockSize, ["0"], .commited⟩, [⟨bloqueLogicoInicial, bloqueFisicoInicial⟩]⟩

def rutaInicial : RutaBlock := rutaBlockLogico "initial_file" "BASE" bloqueLogicoInicial

theorem freshStart_eq (sb : Superbloque) : ∃ mc, freshStart sb =
    ⟨[⟨"initial_file", [tagInicial sb]⟩],
      ((List.range (cantBlock sb)).map (bloqueInicial sb)).modify 0
        fun bf => { bf with blogicoAsociados := bf.blogicoAsociados + 1 },
      bitmapFreshStart (cantBlock sb), [],
      ⟨archivosIniciales sb (cantBlock sb),
        Function.update (fun _ => false) (rutaTag "initial_file" "BASE") true,
        Function.update (fun _ => none) rutaInicial (some bloqueFisicoInicial), mc, []⟩⟩ := by
  have hcero : archivosIniciales sb (cantBlock sb) bloqueFisicoInicial =
      some (contenidoInicial sb 0) := by
    rw [← nombreBloqueFisico_zero]
    exact archivosIniciales_nombre sb (cantBlock_pos sb)
  have hlink : ∀ mc, linkearBlockInicial
      ⟨archivosIniciales sb (cantBlock sb),
        Function.update (fun _ => false) (rutaTag "initial_file" "BASE") true,
        fun _ => none, mc, []⟩
      (rutaTag "initial_file" "BASE") =
      ⟨archivosIniciales sb (cantBlock sb),
        Function.update (fun _ => false) (rutaTag "initial_file" "BASE") true,
        Function.update (fun _ => none) rutaInicial (some bloqueFisicoInicial), mc, []⟩ := by
    intro mc
    unfold linkearBlockInicial Disco.link
    rw [if_neg (by simp [hcero, directorio, rutaBlockLogico, rutaTag]), if_neg (by simp)]
    rfl
  have hcrear : ∀ d : Disco, ∃ mc, crearTag (d.crearRutaTag (rutaTag "initial_file" "BASE")) "BASE"
      (rutaTag "initial_file" "BASE") = (⟨"BASE", ⟨0, [], .workInProgress⟩, []⟩,
        { d.crearRutaTag (rutaTag "initial_file" "BASE") with metadataConfig := mc }) :=
    fun d => ⟨_, Prod.ext (crearTag_fst ..) rfl⟩
  unfold freshStart iniciarBloquesFisicos
  rw [iniciarBloques_eq]
  obtain ⟨mc₁, hmc₁⟩ := hcrear
    { discoVacio with physicalBlocks := archivosIniciales sb (cantBlock sb) }
  obtain ⟨mc, hmc⟩ := actualizarMetadata_eq
    ⟨archivosIniciales sb (cantBlock sb),
      Function.update (fun _ => false) (rutaTag "initial_file" "BASE") true,
      Function.update (fun _ => none) rutaInicial (some bloqueFisicoInicial), mc₁, []⟩
    (rutaTag "initial_file" "BASE") (tagInicial sb).metadata
  refine ⟨mc, ?_⟩
  simp only [crearFile, hmc₁]
  have hlink₁ := hlink mc₁
  simp only [Disco.crearRutaTag, discoVacio]
  rw [hlink₁]
  have hbase : tagBase sb ⟨"BASE", ⟨0, [], .workInProgress⟩, []⟩ = tagInicial sb := rfl
  rw [hbase, hmc]
  rfl

theorem foldl_marcarLibre {bitmap : List Bool} {indices : List ℕ} {k : ℕ} (hk : k ∉ indices) :
    (indices.foldl bitmapMarcarBloqueLibre bitmap)[k]? = bitmap[k]? := by
  induction indices generalizing bitmap with
  | nil => rfl
  | cons i indices ih =>
    have hne : i ≠ k := fun h => hk (h ▸ List.mem_cons_self ..)
    rw [List.foldl_cons, ih (fun h => hk (List.mem_cons_of_mem _ h))]
    exact List.getElem?_set_ne hne

/-- A fresh start leaves every bit but the first clear. -/
theorem bitmapFreshStart_iff {cant : ℕ} (hcant : 0 < cant) (k : ℕ) :
    (bitmapFreshStart cant)[k]? = some true ↔ k = 0 := by
  have hocupado : ∀ i, (bitmapMarcarBloqueOcupado (crearBitmapVacio cant) 0)[i]? = some true ↔
      i = 0 := by
    intro i
    unfold bitmapMarcarBloqueOcupado crearBitmapVacio
    rcases eq_or_ne 0 i with rfl | hne
    · rw [List.getElem?_set_self (by rw [List.length_replicate]; omega)]
      simp
    · rw [List.getElem?_set_ne hne, List.getElem?_replicate]
      split_ifs <;> simp [Ne.symm hne]
  have hsub : ∀ (indices : List ℕ) (b : List Bool) (i : ℕ),
      (indices.foldl bitmapMarcarBloqueLibre b)[i]? = some true → b[i]? = some true := by
    intro indices
    induction indices with
    | nil => exact fun b i h => h
    | cons j indices ih =>
      intro b i h
      have hset := ih (bitmapMarcarBloqueLibre b j) i h
      unfold bitmapMarcarBloqueLibre at hset
      rw [List.getElem?_set] at hset
      split_ifs at hset with hij hlt
      · simp at hset
      · exact hset
  unfold bitmapFreshStart
  constructor
  · intro h
    exact (hocupado k).mp (hsub _ _ k h)
  · rintro rfl
    rw [foldl_marcarLibre (by simp)]
    exact (hocupado 0).mpr rfl

/-- The only link a fresh start makes. -/
theorem links_freshStart {r : RutaBlock} {b : String}
    (hr : (freshStart sb).disco.links r = some b) : r = rutaInicial ∧ b = bloqueFisicoInicial := by
  obtain ⟨mc, hmc⟩ := freshStart_eq sb
  rw [hmc] at hr
  change Function.update (fun _ => none) rutaInicial (some bloqueFisicoInicial) r = some b at hr
  rcases eq_or_ne r rutaInicial with rfl | hne
  · rw [Function.update_self] at hr
    exact ⟨rfl, (Option.some.inj hr).symm⟩
  · rw [Function.update_of_ne hne] at hr
    simp at hr

theorem coherente_freshStart (sb : Superbloque) : Coherente sb (freshStart sb) := by
  obtain ⟨mc, hmc⟩ := freshStart_eq sb
  have hbit : (freshStart sb).bitmap[0]? = some true := by
    rw [hmc]
    exact (bitmapFreshStart_iff (cantBlock_pos sb) 0).mpr rfl
  refine ⟨?_, ?_, ?_, ?_, ?_, hbit, ?_, ?_, ?_⟩
  · rw [hmc]
    intro file hfile tag htag
    obtain rfl := List.mem_singleton.mp hfile
    obtain rfl := List.mem_singleton.mp htag
    constructor
    · intro bl hbl
      obtain rfl := List.mem_singleton.mp hbl
      rfl
    · exact fun e he => List.mem_singleton.mp he
  · rw [hmc]
    exact fun p hp => absurd hp List.not_mem_nil
  · rw [hmc]
    refine Eq.trans (map_pathBlock_modify ?_ _ _) ?_
    · exact fun _ => rfl
    · rw [List.map_map]
      rfl
  · rw [hmc]
    intro k hk
    refine ⟨_, archivosIniciales_nombre sb hk, ?_⟩
    exact List.length_replicate
  · rw [hmc]
    exact fun nombre hsome => archivosIniciales_isSome sb hsome
  · intro r b hr
    obtain ⟨_, rfl⟩ := links_freshStart hr
    exact ⟨0, cantBlock_pos sb, nombreBloqueFisico_zero.symm, hbit⟩
  · intro r r' b hr hr' _
    rw [(links_freshStart hr).1, (links_freshStart hr').1]
  · intro r b hr
    obtain ⟨rfl, _⟩ := links_freshStart hr
    rw [hmc]
    rfl

end Inicio

section Pasos

theorem paso_truncate {tamanio : ℤ} (h : paso md5 sb s (.truncate f t tamanio) = .ok s') :
    ∃ c, operacionTruncateFile sb s f t tamanio = .ok (s', c) := by
  unfold paso atenderWorker at h
  cases hop : operacionTruncateFile sb s f t tamanio with
  | error e => simp [hop, Except.map] at h
  | ok p =>
    simp only [hop, Except.map] at h
    exact ⟨p.2, by rw [← Except.ok.inj h]⟩

theorem paso_commit (h : paso md5 sb s (.commit f t) = .ok s') :
    ∃ c, operacionCommitTag md5 s f t = .ok (s', c) := by
  unfold paso atenderWorker storageCommit at h
  cases hop : operacionCommitTag md5 s f t with
  | error e => simp [hop, Except.map] at h
  | ok p =>
    simp only [hop, Except.map] at h
    exact ⟨p.2, by rw [← Except.ok.inj h]⟩

theorem paso_tag (h : Coherente sb s) {fo tgo : String}
    (hop : paso md5 sb s (.tag fo tgo f t) = .ok s') :
    s' = s ∧ buscarTag s fo tgo = none ∨
      ∃ tag mc, buscarTag s fo tgo = some tag ∧ s' = copiarTag s f t tag mc := by
  have hs' : (operacionTagFile s fo tgo f t).1 = s' := Except.ok.inj hop
  cases htag : buscarTag s fo tgo with
  | none =>
    refine Or.inl ⟨?_, rfl⟩
    rw [← hs', operacionTagFile, htag]
  | some tag =>
    obtain ⟨mc, hmc⟩ := tag_eq h htag f t
    refine Or.inr ⟨tag, mc, rfl, ?_⟩
    rw [← hs', hmc]

theorem paso_writeBlock (h : Coherente sb s) {n : ℕ} {contenido : Bytes}
    (hop : paso md5 sb s (.writeBlock f t n contenido) = .ok s') :
    s' = s ∧ (∀ bl original, ¬ Escribible sb s f t n contenido bl original) ∨
      ∃ bl original, Escribible sb s f t n contenido bl original ∧
        s' = escribirCero md5 sb s original contenido := by
  have hs' : (storageWriteBlock md5 sb s f t n contenido).1 = s' := Except.ok.inj hop
  by_cases he : ∃ bl original, Escribible sb s f t n contenido bl original
  · obtain ⟨bl, original, he⟩ := he
    rw [write_aceptado h he] at hs'
    exact Or.inr ⟨bl, original, he, hs'.symm⟩
  · rw [write_rechazado fun bl original hbl => he ⟨bl, original, hbl⟩] at hs'
    exact Or.inl ⟨hs'.symm, fun bl original hbl => he ⟨bl, original, hbl⟩⟩

theorem paso_delete (h : Coherente sb s) (hop : paso md5 sb s (.delete f t) = .ok s') :
    s' = s ∧ buscarTag s f t = none ∨
      ∃ tag, buscarTag s f t = some tag ∧ s' = eliminado s f t tag := by
  have hs' : operacionEliminarTag sb s f t = s' := Except.ok.inj hop
  cases htag : buscarTag s f t with
  | none => exact Or.inl ⟨by rw [← hs', delete_rechazado htag], rfl⟩
  | some tag => exact Or.inr ⟨tag, rfl, by rw [← hs', delete_eq h htag]⟩

theorem paso_create (hop : paso md5 sb s (.create f t) = .ok s') :
    s' = s ∧ (buscarTag s f t).isSome ∨
      ∃ mc, buscarTag s f t = none ∧ s' = creado s f t mc := by
  have hs' : (operacionCreateFile s f t).1 = s' := Except.ok.inj hop
  cases htag : buscarTag s f t with
  | some tag => exact Or.inl ⟨by rw [← hs', create_rechazado (by rw [htag]; rfl)], rfl⟩
  | none =>
    obtain ⟨mc, hmc⟩ := create_eq htag
    exact Or.inr ⟨mc, rfl, by rw [← hs', hmc]⟩

/-- What the request `x` may do to a state is done in steps that keep `Q`. -/
structure Conserva (md5 : Bytes → String) (sb : Superbloque) (Q : Storage → Prop)
    (x : Solicitud) : Prop where
  crear : ∀ s f t mc, x = .create f t → Coherente sb s → Q s → buscarTag s f t = none →
    Q (creado s f t mc)
  ampliar : ∀ s f t tamanio nro k, x = .truncate f t tamanio → Coherente sb s → Q s →
    Abierto s f t → Ampliable sb s f t nro k → Q (ampliar s f t nro k)
  reducir : ∀ s f t tamanio, x = .truncate f t tamanio → Coherente sb s → Q s →
    Abierto s f t → Q (reducir s f t)
  terminar : ∀ s f t tamanio, x = .truncate f t tamanio → Coherente sb s → Q s →
    Abierto s f t → Q (terminarTruncate s f t tamanio)
  copiar : ∀ s fo tgo f t tag mc, x = .tag fo tgo f t → Coherente sb s → Q s →
    buscarTag s fo tgo = some tag → Q (copiarTag s f t tag mc)
  commitear : ∀ s f t tag index guardado mc, x = .commit f t → Coherente sb s → Q s →
    buscarTag s f t = some tag → tag.metadata.estado ≠ .commited →
    (∀ bl ∈ tag.listaBlockLogicos,
      (s.disco.getContenido (rutaBlockLogico f t bl.nombreBlock)).isSome) →
    (∀ p ∈ index, p.2 = bloqueFisicoInicial) → Q (commiteado s f t tag index guardado mc)
  escribir : ∀ s f t n contenido bl original, x = .writeBlock f t n contenido →
    Coherente sb s → Q s → Escribible sb s f t n contenido bl original →
    Q (escribirCero md5 sb s original contenido)
  eliminar : ∀ s f t tag, x = .delete f t → Coherente sb s → Q s →
    buscarTag s f t = some tag → Q (eliminado s f t tag)

theorem Conserva.paso {Q : Storage → Prop} {x : Solicitud} (hc : Conserva md5 sb Q x)
    (h : Coherente sb s) (hQ : Q s) (hop : paso md5 sb s x = .ok s') : Coherente sb s' ∧ Q s' := by
  cases x with
  | create f t =>
    rcases paso_create hop with ⟨rfl, _⟩ | ⟨mc, hnone, rfl⟩
    · exact ⟨h, hQ⟩
    · exact ⟨coherente_creado h f t mc, hc.crear s f t mc rfl h hQ hnone⟩
  | truncate f t tamanio =>
    obtain ⟨c, hop⟩ := paso_truncate hop
    refine truncate_regla h hQ ?_ ?_ ?_ hop
    · exact fun s₁ nro k h₁ habierto hQ₁ ha =>
        hc.ampliar s₁ f t tamanio nro k rfl h₁ hQ₁ habierto ha
    · exact fun s₁ h₁ habierto hQ₁ => hc.reducir s₁ f t tamanio rfl h₁ hQ₁ habierto
    · exact fun s₁ h₁ habierto hQ₁ => hc.terminar s₁ f t tamanio rfl h₁ hQ₁ habierto
  | tag fo tgo f t =>
    rcases paso_tag h hop with ⟨rfl, _⟩ | ⟨tag, mc, htag, rfl⟩
    · exact ⟨h, hQ⟩
    · exact ⟨coherente_copiarTag h htag f t mc, hc.copiar s fo tgo f t tag mc rfl h hQ htag⟩
  | commit f t =>
    obtain ⟨c, hop⟩ := paso_commit hop
    rcases commit_casos h hop with
      rfl | ⟨tag, index, guardado, mc, htag, habierto, hcontenidos, hindex, rfl⟩
    · exact ⟨h, hQ⟩
    · exact ⟨coherente_commiteado h htag hindex mc,
        hc.commitear s f t tag index guardado mc rfl h hQ htag habierto hcontenidos hindex⟩
  | writeBlock f t n contenido =>
    rcases paso_writeBlock h hop with ⟨rfl, _⟩ | ⟨bl, original, he, rfl⟩
    · exact ⟨h, hQ⟩
    · exact ⟨coherente_escribirCero h md5 original he.cabe,
        hc.escribir s f t n contenido bl original rfl h hQ he⟩
  | readBlock f t n =>
    obtain rfl : s = s' := Except.ok.inj hop
    exact ⟨h, hQ⟩
  | flush f t =>
    obtain rfl : s = s' := Except.ok.inj hop
    exact ⟨h, hQ⟩
  | delete f t =>
    rcases paso_delete h hop with ⟨rfl, _⟩ | ⟨tag, htag, rfl⟩
    · exact ⟨h, hQ⟩
    · exact ⟨coherente_eliminado h f t tag, hc.eliminar s f t tag rfl h hQ htag⟩

theorem coherente_paso {x : Solicitud} (h : Coherente sb s) (hop : paso md5 sb s x = .ok s') :
    Coherente sb s' := by
  have hc : Conserva md5 sb (fun _ => True) x := by
    constructor <;> intros <;> trivial
  exact (hc.paso h trivial hop).1

/-- The invariant holds in every state the Storage reaches from a fresh start. -/
theorem coherente_alcanzable (h : Alcanzable md5 sb s) : Coherente sb s :=
  run_invariant (fun _ _ _ hcoh hop => coherente_paso hcoh hop) (coherente_freshStart sb) h

end Pasos

section Ejemplos

/-- The state a list of requests leads to; a run that fails leads nowhere. -/
def estadoTras (md5 : Bytes → String) (sb : Superbloque) (xs : List Solicitud) : Storage :=
  match run (paso md5 sb) (freshStart sb) xs with
  | .ok s => s
  | .error _ => freshStart sb

theorem alcanzable_estadoTras (md5 : Bytes → String) (sb : Superbloque) (xs : List Solicitud) :
    Alcanzable md5 sb (estadoTras md5 sb xs) := by
  unfold estadoTras
  cases hrun : run (paso md5 sb) (freshStart sb) xs with
  | error e => exact Reaches.refl _
  | ok s => exact ⟨xs, hrun⟩

/-- Four blocks of two bytes. -/
def superbloqueChico : Superbloque := ⟨8, 2, by decide, by decide, by decide⟩

/-- A readable hash without collisions, in place of crypto_md5. -/
def hashLegible (b : Bytes) : String := ",".intercalate (b.map fun x => x.toNat.repr)

end Ejemplos

end MasterOfFiles.ReachableStates
