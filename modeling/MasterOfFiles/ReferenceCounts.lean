import MasterOfFiles.PlainNames
import MasterOfFiles.ReachableStates
import MasterOfFiles.SharedStrings

/-!
Reference counts. Every request adjusts the count of block0000 by as many
logical blocks as it adds or drops, except DELETE, which counts one per entry
of blocks_usados. The difference between the count and the logical blocks is
therefore changed by DELETE alone, as long as the strings of those entries are
still there to be read.
-/
namespace MasterOfFiles.ReferenceCounts

open KeyedLists BlockNames StorageState StorageFiles StorageOperations PartialRuns
open TagLookups BlockZero TruncateEffects RequestEffects ReachableStates
open WatchedRuns PlainNames SharedStrings

variable {md5 : ByteBuffers.Bytes → String} {sb : Superbloque} {s s' : Storage} {f t : String}

def bloquesLogicos (s : Storage) : List BlockLogico :=
  s.listaFiles.flatMap fun file => file.tags.flatMap Tag.listaBlockLogicos

/-- Every counter is the number of logical blocks, over all Tags of all Files,
associated with its block. -/
def RefExact (s : Storage) : Prop :=
  ∀ bf ∈ s.listaBloquesFisicos, bf.blogicoAsociados =
    ((bloquesLogicos s).countP fun bl => bl.bloqueFisicoAsociado = bf.pathBlock)

instance (s : Storage) : Decidable (RefExact s) := by
  unfold RefExact
  infer_instance

section Peso

def pesoTag (tag : Tag) : ℕ := tag.listaBlockLogicos.length

def pesoTags (tags : List Tag) : ℕ := (tags.map pesoTag).sum

def peso (s : Storage) : ℕ := (s.listaFiles.map fun file => pesoTags file.tags).sum

theorem peso_eq_length (s : Storage) : peso s = (bloquesLogicos s).length := by
  unfold peso pesoTags pesoTag bloquesLogicos
  simp only [List.length_flatMap]

theorem peso_modificarTags {file : File} (hfile : buscarFile s f = some file)
    (h : List Tag → List Tag) :
    peso (modificarTags s f h) + pesoTags file.tags = peso s + pesoTags (h file.tags) :=
  sum_modifyFirst (fun x : File => pesoTags x.tags) hfile

theorem peso_modificarTag {tag : Tag} (htag : buscarTag s f t = some tag) (g : Tag → Tag) :
    peso (modificarTag s f t g) + pesoTag tag = peso s + pesoTag (g tag) := by
  obtain ⟨file, hfile, hfirst⟩ := buscarTag_eq_some htag
  have hfiles := peso_modificarTags hfile (modifyFirst Tag.nameTag t g)
  have htags := sum_modifyFirst (g := g) pesoTag hfirst
  unfold modificarTag
  unfold pesoTags at hfiles
  omega

theorem peso_agregarTag (hfile : (buscarFile s f).isSome) (tag : Tag) :
    peso (agregarTag s f tag) = peso s + pesoTag tag := by
  obtain ⟨file, hfile⟩ := Option.isSome_iff_exists.mp hfile
  have hfiles := peso_modificarTags hfile (· ++ [tag])
  have htags : pesoTags (file.tags ++ [tag]) = pesoTags file.tags + pesoTag tag := by
    simp [pesoTags]
  unfold agregarTag
  omega

theorem peso_quitarTag {tag : Tag} (htag : buscarTag s f t = some tag) :
    peso (quitarTag s f t) + pesoTag tag = peso s := by
  obtain ⟨file, hfile, hfirst⟩ := buscarTag_eq_some htag
  have hfiles := peso_modificarTags hfile (eraseFirst Tag.nameTag t)
  have htags := sum_eraseFirst pesoTag hfirst
  unfold quitarTag
  unfold pesoTags at hfiles
  omega

theorem peso_crearFile (s : Storage) (f : String) : peso (crearFile s f) = peso s := by
  simp [peso, crearFile, pesoTags]

theorem peso_asegurarFile (s : Storage) (f : String) : peso (asegurarFile s f) = peso s := by
  unfold asegurarFile
  split_ifs
  · rfl
  · exact peso_crearFile s f

end Peso

section Conteo

def conteoCero (s : Storage) : ℤ :=
  (s.listaBloquesFisicos[0]?.map BlockFisico.blogicoAsociados).getD 0

/-- How far block0000's counter is ahead of the logical blocks there are. -/
def desbalance (s : Storage) : ℤ := conteoCero s - peso s

/-- No counter but block0000's ever moves. -/
def OtrosEnCero (s : Storage) : Prop :=
  ∀ i bf, s.listaBloquesFisicos[i + 1]? = some bf → bf.blogicoAsociados = 0

theorem conteoCero_sumarAsociados (h : Coherente sb s) (k : ℤ) :
    conteoCero (sumarAsociados s 0 k) = conteoCero s + k := by
  obtain ⟨bf0, bfs, hbfs, _⟩ := h.bloque_cero
  simp [conteoCero, sumarAsociados, hbfs]

theorem otrosEnCero_sumarAsociados (h : OtrosEnCero s) (k : ℤ) :
    OtrosEnCero (sumarAsociados s 0 k) := by
  intro i bf hbf
  refine h i bf ?_
  rw [← hbf]
  exact (List.getElem?_modify_ne _ _ (by omega)).symm

/-- With all associations at block0000, the counts are exact when nothing is out of balance. -/
theorem refExact_iff (h : Coherente sb s) (hotros : OtrosEnCero s) :
    RefExact s ↔ desbalance s = 0 := by
  have hasoc : ∀ bl ∈ bloquesLogicos s, bl.bloqueFisicoAsociado = bloqueFisicoInicial := by
    intro bl hbl
    obtain ⟨file, hfile, hbl⟩ := List.mem_flatMap.mp hbl
    obtain ⟨tag, htag, hbl⟩ := List.mem_flatMap.mp hbl
    exact (h.tags_cero file hfile tag htag).asociados bl hbl
  have hcero : (bloquesLogicos s).countP (fun bl => bl.bloqueFisicoAsociado = bloqueFisicoInicial) =
      (bloquesLogicos s).length := by
    refine List.countP_eq_length.mpr fun bl hbl => ?_
    simpa only [decide_eq_true_eq] using hasoc bl hbl
  obtain ⟨bf0, bfs, hbfs, hname⟩ := h.bloque_cero
  have hconteo : conteoCero s = bf0.blogicoAsociados := by simp [conteoCero, hbfs]
  unfold desbalance
  constructor
  · intro hexact
    have hbf0 := hexact bf0 (hbfs ▸ List.mem_cons_self ..)
    rw [hname, hcero, ← peso_eq_length] at hbf0
    omega
  · intro hbalance bf hbf
    rw [hbfs] at hbf
    rcases List.mem_cons.mp hbf with rfl | hbf
    · rw [hname, hcero, ← peso_eq_length]
      omega
    · obtain ⟨i, hi⟩ := List.mem_iff_getElem?.mp hbf
      have hi' : s.listaBloquesFisicos[i + 1]? = some bf := by rw [hbfs]; exact hi
      have hne : bf.pathBlock ≠ bloqueFisicoInicial := by
        have hnombres := congrArg (fun l => l[i + 1]?) h.nombres
        rw [List.getElem?_map, hi', Option.map_some, List.getElem?_map] at hnombres
        obtain ⟨k, hk, hpath⟩ := Option.map_eq_some_iff.mp hnombres.symm
        rw [← hpath]
        intro hzero
        have hk0 := (nombreBloqueFisico_eq_inicial_iff k).mp hzero
        obtain ⟨_, hki⟩ := List.getElem?_eq_some_iff.mp hk
        rw [List.getElem_range] at hki
        omega
      have hnone : (bloquesLogicos s).countP (fun bl => bl.bloqueFisicoAsociado = bf.pathBlock) =
          0 := by
        refine List.countP_eq_zero.mpr fun bl hbl => ?_
        simpa only [hasoc bl hbl, decide_eq_true_eq] using Ne.symm hne
      rw [hnone, hotros i bf hi']
      rfl

end Conteo

section Pasos

/-- What a request adds to the imbalance: only DELETE adds anything. -/
def desvio (s : Storage) : Solicitud → ℤ
  | .delete f t => ((buscarTag s f t).map fun tag =>
      (tag.listaBlockLogicos.length : ℤ) - tag.metadata.blocksFisicosUsados.length).getD 0
  | _ => 0

theorem desbalance_ampliar (h : Coherente sb s) (hvisible : (buscarTag s f t).isSome) (nro : ℤ)
    (k : ℕ) : desbalance (ampliar s f t nro k) = desbalance s := by
  obtain ⟨tag, htag⟩ := Option.isSome_iff_exists.mp hvisible
  have hconteo := conteoCero_sumarAsociados h 1
  have hpeso := peso_modificarTag htag (agregarBloqueLogico (crearNombreBloqueLogico nro))
  have htag' : pesoTag (agregarBloqueLogico (crearNombreBloqueLogico nro) tag) =
      pesoTag tag + 1 := by
    simp [pesoTag, agregarBloqueLogico]
  change conteoCero (sumarAsociados s 0 1) -
    peso (modificarTag s f t (agregarBloqueLogico (crearNombreBloqueLogico nro))) =
      conteoCero s - peso s
  omega

theorem desbalance_reducir (h : Coherente sb s) (f t : String) :
    desbalance (reducir s f t) = desbalance s := by
  unfold reducir
  cases hlast : (buscarTag s f t).bind fun tag => tag.listaBlockLogicos.getLast? with
  | none => rfl
  | some bl =>
    obtain ⟨tag, htag, hbl⟩ := Option.bind_eq_some_iff.mp hlast
    have hconteo := conteoCero_sumarAsociados h (-1)
    have hpeso := peso_modificarTag htag quitarUltimo
    have htag' : pesoTag (quitarUltimo tag) + 1 = pesoTag tag := by
      have hpos : 0 < tag.listaBlockLogicos.length :=
        List.length_pos_of_mem (List.mem_of_getLast? hbl)
      simp only [pesoTag, quitarUltimo, List.length_dropLast]
      omega
    change conteoCero (sumarAsociados s 0 (-1)) - peso (modificarTag s f t quitarUltimo) =
      conteoCero s - peso s
    omega

theorem desbalance_terminarTruncate (s : Storage) (f t : String) (tamanio : ℤ) :
    desbalance (terminarTruncate s f t tamanio) = desbalance s := by
  obtain ⟨mc, hmc⟩ := terminarTruncate_eq s f t tamanio
  rw [hmc]
  change conteoCero s - peso (modificarTag s f t (fijarTamanio tamanio)) = conteoCero s - peso s
  cases htag : buscarTag s f t with
  | none =>
    rw [modificarTag_of_none s _ htag]
  | some tag =>
    have hpeso := peso_modificarTag htag (fijarTamanio tamanio)
    have htag' : pesoTag (fijarTamanio tamanio tag) = pesoTag tag := rfl
    omega

theorem desbalance_copiarTag (h : Coherente sb s) (f t : String) (tag : Tag)
    (mc : RutaTag → Option ConfigText.Config) :
    desbalance (copiarTag s f t tag mc) = desbalance s := by
  have hconteo := conteoCero_sumarAsociados h tag.listaBlockLogicos.length
  have hpeso := peso_agregarTag (buscarFile_asegurarFile s f) (copia t tag)
  have hcopia : pesoTag (copia t tag) = tag.listaBlockLogicos.length := rfl
  have hbfs : conteoCero (sumarAsociados (asegurarFile s f) 0 tag.listaBlockLogicos.length) =
      conteoCero (sumarAsociados s 0 tag.listaBlockLogicos.length) := by
    rw [asegurarFile_eq]
    rfl
  rw [peso_asegurarFile] at hpeso
  change conteoCero (sumarAsociados (asegurarFile s f) 0 tag.listaBlockLogicos.length) -
    peso (agregarTag (asegurarFile s f) f (copia t tag)) = conteoCero s - peso s
  omega

theorem desbalance_eliminado (h : Coherente sb s) {tag : Tag} (htag : buscarTag s f t = some tag) :
    desbalance (eliminado s f t tag) = desbalance s +
      (tag.listaBlockLogicos.length - tag.metadata.blocksFisicosUsados.length) := by
  have hconteo := conteoCero_sumarAsociados h (-tag.metadata.blocksFisicosUsados.length)
  have hpeso := peso_quitarTag htag
  have htag' : pesoTag tag = tag.listaBlockLogicos.length := rfl
  change conteoCero (sumarAsociados s 0 (-tag.metadata.blocksFisicosUsados.length)) -
    peso (quitarTag s f t) = conteoCero s - peso s + _
  omega

theorem desbalance_creado (s : Storage) (f t : String) (mc : RutaTag → Option ConfigText.Config) :
    desbalance (creado s f t mc) = desbalance s := by
  have hpeso := peso_agregarTag (buscarFile_crearFile_self s f) (tagNuevo t)
  have hnuevo : pesoTag (tagNuevo t) = 0 := rfl
  rw [peso_crearFile] at hpeso
  change conteoCero s - peso (agregarTag (crearFile s f) f (tagNuevo t)) = conteoCero s - peso s
  omega

theorem desbalance_commiteado {tag : Tag} (htag : buscarTag s f t = some tag)
    (index guardado : ConfigText.Config) (mc : RutaTag → Option ConfigText.Config) :
    desbalance (commiteado s f t tag index guardado mc) = desbalance s := by
  have hpeso := peso_modificarTag htag (commitear tag.listaBlockLogicos)
  have htag' : pesoTag (commitear tag.listaBlockLogicos tag) = pesoTag tag := rfl
  change conteoCero s - peso (modificarTag s f t (commitear tag.listaBlockLogicos)) =
    conteoCero s - peso s
  omega

theorem desbalance_escribirCero (h : Coherente sb s) (original contenido : ByteBuffers.Bytes) :
    desbalance (escribirCero md5 sb s original contenido) = desbalance s := by
  obtain ⟨bf0, bfs, hbfs, _⟩ := h.bloque_cero
  have hconteo : conteoCero (escribirCero md5 sb s original contenido) = conteoCero s := by
    simp [conteoCero, escribirCero, hbfs]
  unfold desbalance
  rw [hconteo]
  rfl

theorem desbalance_paso {x : Solicitud} (h : Coherente sb s) (hop : paso md5 sb s x = .ok s') :
    desbalance s' = desbalance s + desvio s x := by
  by_cases hx : ∃ f t, x = .delete f t
  · obtain ⟨f, t, rfl⟩ := hx
    rcases paso_delete h hop with ⟨rfl, hnone⟩ | ⟨tag, htag, rfl⟩
    · simp [desvio, hnone]
    · rw [desbalance_eliminado h htag]
      simp [desvio, htag]
  · have hdesvio : desvio s x = 0 := by
      unfold desvio
      split
      · next f t => exact absurd ⟨f, t, rfl⟩ hx
      · rfl
    have hc : Conserva md5 sb (fun s₁ => desbalance s₁ = desbalance s) x := {
      crear := fun s₁ f t mc _ _ hQ _ => (desbalance_creado s₁ f t mc).trans hQ
      ampliar := fun _ _ _ _ nro k _ h₁ hQ habierto _ =>
        (desbalance_ampliar h₁ habierto.visible nro k).trans hQ
      reducir := fun _ f t _ _ h₁ hQ _ => (desbalance_reducir h₁ f t).trans hQ
      terminar := fun s₁ f t tamanio _ _ hQ _ =>
        (desbalance_terminarTruncate s₁ f t tamanio).trans hQ
      copiar := fun _ _ _ f t tag mc _ h₁ hQ _ => (desbalance_copiarTag h₁ f t tag mc).trans hQ
      commitear := fun _ _ _ _ index guardado mc _ _ hQ htag _ _ _ =>
        (desbalance_commiteado htag index guardado mc).trans hQ
      escribir := fun _ _ _ _ contenido _ original _ h₁ hQ _ =>
        (desbalance_escribirCero h₁ original contenido).trans hQ
      eliminar := fun _ f t _ heq _ _ _ => absurd ⟨f, t, heq⟩ hx }
    rw [hdesvio, add_zero]
    exact (hc.paso h rfl hop).2

/-- Counters other than block0000's keep the value they have. -/
theorem otrosEnCero_paso {x : Solicitud} (h : Coherente sb s) (hotros : OtrosEnCero s)
    (hop : paso md5 sb s x = .ok s') : OtrosEnCero s' := by
  have hc : Conserva md5 sb OtrosEnCero x := {
    crear := fun _ _ _ _ _ _ hQ _ => hQ
    ampliar := fun _ _ _ _ _ _ _ _ hQ _ _ => otrosEnCero_sumarAsociados hQ 1
    reducir := by
      intro s₁ f t _ _ _ hQ _
      unfold reducir
      split
      · exact hQ
      · exact otrosEnCero_sumarAsociados hQ (-1)
    terminar := by
      intro s₁ f t tamanio _ _ hQ _
      obtain ⟨mc, hmc⟩ := terminarTruncate_eq s₁ f t tamanio
      rw [hmc]
      exact hQ
    copiar := by
      intro s₁ _ _ f t tag _ _ _ hQ _
      have hasegurar : OtrosEnCero (asegurarFile s₁ f) := by
        rw [asegurarFile_eq]
        exact hQ
      exact otrosEnCero_sumarAsociados hasegurar _
    commitear := fun _ _ _ _ _ _ _ _ _ hQ _ _ _ _ => hQ
    escribir := by
      intro s₁ _ _ _ _ _ _ _ _ hQ _ i bf hbf
      refine hQ i bf ?_
      rw [← hbf]
      exact (List.getElem?_modify_ne _ _ (by omega)).symm
    eliminar := fun _ _ _ _ _ _ hQ _ => otrosEnCero_sumarAsociados hQ _ }
  exact (hc.paso h hotros hop).2

end Pasos

section Corrida

/-- A DELETE of a Tag that exists pops as many entries as the Tag has blocks. -/
def BorradoContado (s : Storage) (x : Solicitud) : Prop :=
  ∀ f t, x = .delete f t → ∀ tag, buscarTag s f t = some tag →
    tag.listaBlockLogicos.length = tag.metadata.blocksFisicosUsados.length

theorem desvio_eq_zero_iff (s : Storage) (x : Solicitud) :
    desvio s x = 0 ↔ BorradoContado s x := by
  cases x with
  | delete f t =>
    cases htag : buscarTag s f t with
    | none => simp [desvio, BorradoContado, htag]
    | some tag =>
      simp only [desvio, htag, Option.map_some, Option.getD_some]
      constructor
      · rintro hzero f' t' heq tag' htag'
        obtain ⟨rfl, rfl⟩ := Solicitud.delete.inj heq
        obtain rfl := Option.some.inj (htag.symm.trans htag')
        omega
      · intro hcontado
        have hlength := hcontado f t rfl tag htag
        omega
  | create f t => simp [desvio, BorradoContado]
  | truncate f t tamanio => simp [desvio, BorradoContado]
  | tag fo tgo f t => simp [desvio, BorradoContado]
  | commit f t => simp [desvio, BorradoContado]
  | writeBlock f t n contenido => simp [desvio, BorradoContado]
  | readBlock f t n => simp [desvio, BorradoContado]
  | flush f t => simp [desvio, BorradoContado]

theorem desbalance_freshStart (sb : Superbloque) :
    desbalance (freshStart sb) = 0 ∧ OtrosEnCero (freshStart sb) := by
  obtain ⟨mc, hmc⟩ := freshStart_eq sb
  have hlista : (freshStart sb).listaBloquesFisicos =
      ((List.range (cantBlock sb)).map (bloqueInicial sb)).modify 0
        fun bf => { bf with blogicoAsociados := bf.blogicoAsociados + 1 } := by rw [hmc]
  have hpeso : peso (freshStart sb) = 1 := by
    rw [hmc]
    rfl
  constructor
  · have hconteo : conteoCero (freshStart sb) = 1 := by
      unfold conteoCero
      rw [hlista, List.getElem?_modify_eq, List.getElem?_map,
        List.getElem?_range (cantBlock_pos sb)]
      rfl
    unfold desbalance
    rw [hconteo, hpeso]
    rfl
  · intro i bf hbf
    rw [hlista, List.getElem?_modify_ne _ _ (by omega), List.getElem?_map] at hbf
    obtain ⟨k, _, rfl⟩ := Option.map_eq_some_iff.mp hbf
    rfl

/-- Of the values of the strings alone. -/
theorem refExact_valores_iff (md5 : ByteBuffers.Bytes → String) (sb : Superbloque)
    (xs : List Solicitud) :
    AlongRun (paso md5 sb) RefExact (freshStart sb) xs ↔
      EachStep (paso md5 sb) BorradoContado (freshStart sb) xs := by
  have hinicio := coherente_freshStart sb
  obtain ⟨hzero, hotros⟩ := desbalance_freshStart sb
  refine alongRun_iff_eachStep (I := fun s => Coherente sb s ∧ OtrosEnCero s)
    (A := fun _ => True) ?_ ?_ ⟨hinicio, hotros⟩ ((refExact_iff hinicio hotros).mpr hzero) xs
    fun _ _ => trivial
  · rintro s x s' _ ⟨hcoh, hotros⟩ hexact hop
    have hbalance := (refExact_iff hcoh hotros).mp hexact
    rw [refExact_iff (coherente_paso hcoh hop) (otrosEnCero_paso hcoh hotros hop),
      desbalance_paso hcoh hop, hbalance, zero_add]
    exact desvio_eq_zero_iff s x
  · rintro s x s' _ ⟨hcoh, hotros⟩ _ _ hop
    exact ⟨coherente_paso hcoh hop, otrosEnCero_paso hcoh hotros hop⟩

/-- The counts are exact all along a run just when no request of it uses a freed string and
each DELETE pops one entry of blocks_usados per logical block. -/
theorem refExact_alongRun_iff (md5 : ByteBuffers.Bytes → String) (sb : Superbloque)
    {raiz : ByteBuffers.Bytes} (xs : List (Pedido raiz)) :
    AlongRun (pasoVigilado md5 sb) (fun c => c.known = true ∧ RefExact c.state) (inicio sb)
        xs.unattach ↔
      EachStep (pasoVigilado md5 sb)
        (fun c x => SinTocarLiberadas md5 sb c x ∧ BorradoContado c.state x) (inicio sb)
        xs.unattach :=
  alongRun_watched_iff_eachStep rfl (refExact_valores_iff md5 sb xs.unattach)

/-- Two blocks of a deleted Tag are counted off once. -/
theorem not_refExact_delete : ¬ ∀ md5 sb s, Alcanzable md5 sb s → RefExact s := by
  intro h
  have hexact := h hashLegible superbloqueChico _ (alcanzable_estadoTras hashLegible
    superbloqueChico [.create "a" "b", .truncate "a" "b" 4, .delete "a" "b"])
  exact absurd hexact (by decide)

end Corrida

end MasterOfFiles.ReferenceCounts
