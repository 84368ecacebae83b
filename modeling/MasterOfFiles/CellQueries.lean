import MasterOfFiles.AccessBounds
import MasterOfFiles.CommittedTags
import MasterOfFiles.ServerMorphisms
import MasterOfFiles.SharedCell

/-!
Whole Queries in front of the Storage itself. Every write lands in block0000, so the page
of a Tag keeps what is written to it where its hard link leads there, and only then. As
long as no other page is used, a Worker cannot tell that page from an array of one block:
neither its own frames nor COMMITs, TAGs, FLUSHes or work on other Tags show.
-/
namespace MasterOfFiles.CellQueries

open ByteBuffers BlockNames StorageState StorageOperations
open TagLookups BlockZero RequestEffects TruncateEffects ReachableStates WriteReadback
open SharedCell AccessBounds HandlerSimulation TransparentQueries ServerMorphisms
open FrameTables (Clave)
open PagingSimulation (Valida Plano)
open QueryText (Instruccion)
open WorkerLoop (escuchar)
open WorkerMemory (Ram Reloj)
open WorkerInstructions (procesoInicial)
open TransparentPaging (planoDe)
open CommittedTags (links_ampliar_ne links_reducir_ne links_copiarTag_of_isSome)

variable {md5 : Bytes → String} {sb : Superbloque} {s s' : Storage} {f t : String}

section Pagina

/-- The first page of the Tag is a hard link to block0000. -/
def EnCelda (f t : String) (s : Storage) : Prop := enlaceDe s f t 0 = some bloqueFisicoInicial

theorem enCelda_cambio (h : EnCelda f t s)
    (htag : ∀ tag, buscarTag s f t = some tag → ∃ tag', buscarTag s' f t = some tag' ∧
      tag'.listaBlockLogicos = tag.listaBlockLogicos)
    (hlinks : ∀ r b, directorio r = rutaTag f t → s.disco.links r = some b →
      s'.disco.links r = some b) : EnCelda f t s' := by
  obtain ⟨bl, hbl, hlink⟩ := Option.bind_eq_some_iff.mp h
  obtain ⟨tag, hbuscar, hprimero⟩ := Option.bind_eq_some_iff.mp hbl
  obtain ⟨tag', hbuscar', hlista⟩ := htag tag hbuscar
  have hlink' := hlinks _ _ rfl hlink
  unfold EnCelda enlaceDe
  rw [hbuscar', Option.bind_some, hlista, hprimero, Option.bind_some, hlink']

/-- A change of one Tag leaves the pages of the others where they are. -/
theorem enCelda_ajena (h : EnCelda f t s) {f' t' : String} (hne : rutaTag f t ≠ rutaTag f' t')
    (htag : buscarTag s' f t = buscarTag s f t)
    (hlinks : ∀ r, directorio r ≠ rutaTag f' t' → s'.disco.links r = s.disco.links r) :
    EnCelda f t s' :=
  enCelda_cambio h (fun tag hbuscar => ⟨tag, htag.trans hbuscar, rfl⟩)
    fun r _ hr hlink => (hlinks r (hr ▸ hne)).trans hlink

/-- Only a TRUNCATE or a DELETE of the Tag itself may take the page away. -/
theorem conserva_enCelda {x : Solicitud} (htruncate : ∀ n, x ≠ .truncate f t n)
    (hdelete : x ≠ .delete f t) : Conserva md5 sb (EnCelda f t) x where
  crear s f' t' mc _ _ hQ _ := by
    refine enCelda_cambio hQ (fun tag htag => ⟨tag, ?_, rfl⟩) fun _ _ _ hlink => hlink
    rw [buscarTag_creado, htag, Option.some_or]
  ampliar s f' t' n nro k heq _ hQ _ _ := by
    have hne : rutaTag f t ≠ rutaTag f' t' := by
      intro hruta
      obtain ⟨rfl, rfl⟩ := Prod.mk.inj hruta
      exact htruncate n heq
    exact enCelda_ajena hQ hne (buscarTag_ampliar_ne hne nro k) fun _ => links_ampliar_ne
  reducir s f' t' n heq _ hQ _ := by
    have hne : rutaTag f t ≠ rutaTag f' t' := by
      intro hruta
      obtain ⟨rfl, rfl⟩ := Prod.mk.inj hruta
      exact htruncate n heq
    exact enCelda_ajena hQ hne (buscarTag_reducir_ne s hne) fun _ => links_reducir_ne
  terminar s f' t' n heq _ hQ _ := by
    have hne : rutaTag f t ≠ rutaTag f' t' := by
      intro hruta
      obtain ⟨rfl, rfl⟩ := Prod.mk.inj hruta
      exact htruncate n heq
    obtain ⟨mc, hmc⟩ := terminarTruncate_eq s f' t' n
    rw [hmc]
    exact enCelda_ajena hQ hne (buscarTag_modificarTag_ne s (nameTag_fijarTamanio n) hne)
      fun _ _ => rfl
  copiar s fo tgo f' t' tag mc _ _ hQ _ := by
    refine enCelda_cambio hQ (fun tag' htag' => ⟨tag', ?_, rfl⟩) fun r b _ hlink => ?_
    · rw [buscarTag_copiarTag, htag', Option.some_or]
    · rw [links_copiarTag_of_isSome (Option.isSome_of_eq_some hlink), hlink]
  commitear s f' t' tag index guardado mc _ _ hQ htag _ _ _ := by
    have hname := nameTag_commitear tag.listaBlockLogicos
    by_cases hne : rutaTag f t = rutaTag f' t'
    · obtain ⟨rfl, rfl⟩ := Prod.mk.inj hne
      refine enCelda_cambio hQ (fun tag' htag' => ?_) fun _ _ _ hlink => hlink
      obtain rfl := Option.some.inj (htag.symm.trans htag')
      refine ⟨commitear tag.listaBlockLogicos tag, ?_, rfl⟩
      have hself := buscarTag_modificarTag_self (cambiarIndice s index guardado) hname f t
      exact hself.trans (congrArg (Option.map _) htag)
    · exact enCelda_ajena hQ hne
        (buscarTag_modificarTag_ne (cambiarIndice s index guardado) hname hne) fun _ _ => rfl
  escribir _ _ _ _ _ _ _ _ _ hQ _ := hQ
  eliminar s f' t' tag heq _ hQ _ := by
    have hne : rutaTag f t ≠ rutaTag f' t' := by
      intro hruta
      obtain ⟨rfl, rfl⟩ := Prod.mk.inj hruta
      exact hdelete heq
    exact enCelda_ajena hQ hne (buscarTag_quitarTag_ne s hne) fun r hr => if_neg hr

/-- The states in which the page can be used. -/
def Servible (sb : Superbloque) (f t : String) (s : Storage) : Prop :=
  Coherente sb s ∧ EnCelda f t s

theorem contenidoDe_of_servible (h : Servible sb f t s) :
    contenidoDe s f t 0 = some (celda s) := by
  obtain ⟨b, hb, -⟩ := h.1.archivo_cero
  have hcelda : EnCelda f t s := h.2
  rw [contenidoDe, hcelda, Option.bind_some, hb, celda_eq hb]

theorem length_celda (h : Coherente sb s) : (celda s).length = sb.blockSize := by
  obtain ⟨b, hb, hlargo⟩ := h.archivo_cero
  rw [celda_eq hb, hlargo]

/-- A write of a whole page is accepted, and is what block0000 holds then. -/
theorem escribible_of_servible (h : Servible sb f t s) {b : Bytes}
    (hb : b.length = sb.blockSize) : ∃ bl, Escribible sb s f t 0 b bl (celda s) := by
  obtain ⟨bl, hbl, hlink⟩ := Option.bind_eq_some_iff.mp (show enlaceDe s f t 0 = some _ from h.2)
  refine ⟨bl, hbl, hb.le, ?_⟩
  have hcontenido := contenidoDe_of_servible h
  unfold contenidoDe enlaceDe at hcontenido
  rw [hbl] at hcontenido
  exact hcontenido

theorem celda_escribirCero (md5 : Bytes → String) (s : Storage) (original : Bytes) {b : Bytes}
    (horiginal : original.length = sb.blockSize) (hb : b.length = sb.blockSize) :
    celda (escribirCero md5 sb s original b) = b := by
  have hcelda : celda (escribirCero md5 sb s original b) = bufferEscritura sb original b :=
    celda_eq (Function.update_self bloqueFisicoInicial _ s.disco.physicalBlocks)
  have htake := take_bufferEscritura horiginal hb.le
  rw [List.take_of_length_le (by rw [length_bufferEscritura original hb.le, hb])] at htake
  exact hcelda.trans htake

end Pagina

section Servidor

theorem pedir_servible {x : Solicitud} (htruncate : ∀ n, x ≠ .truncate f t n)
    (hdelete : x ≠ .delete f t) (h : Servible sb f t s) :
    Servible sb f t (pedir md5 sb s x).1 := by
  unfold pedir
  cases hres : atenderWorker md5 sb s x with
  | error e => exact h
  | ok r =>
    have hpaso : paso md5 sb s x = .ok r.1 := by rw [paso, hres, Except.map]
    exact (conserva_enCelda htruncate hdelete).paso h.1 h.2 hpaso

theorem pedirFileTag_servible {a : String} {x : String → String → Solicitud}
    (htruncate : ∀ p ∈ WorkerInstructions.separarFileTag a, ∀ n, x p.1 p.2 ≠ .truncate f t n)
    (hdelete : ∀ p ∈ WorkerInstructions.separarFileTag a, x p.1 p.2 ≠ .delete f t)
    (h : Servible sb f t s) : Servible sb f t (pedirFileTag md5 sb s a x).1 := by
  unfold pedirFileTag
  cases hsep : WorkerInstructions.separarFileTag a with
  | none => exact h
  | some p => exact pedir_servible (htruncate p hsep) (hdelete p hsep) h

/-- One page of one Tag. -/
def unaPagina (f t : String) (ft : String × String) : ℕ := if ft = (f, t) then 1 else 0

theorem ne_of_unaPagina {p : String × String} (h : unaPagina f t p = 0) : p ≠ (f, t) := by
  rintro rfl
  rw [unaPagina, if_pos rfl] at h
  exact absurd h Nat.one_ne_zero

theorem cerrado_servidorStorage (md5 : Bytes → String) (sb : Superbloque) (f t : String) :
    Cerrado (servidorStorage md5 sb) (Servible sb f t)
      (fun a _ => ∀ p ∈ WorkerInstructions.separarFileTag a, unaPagina f t p = 0)
      fun p => unaPagina f t p = 0 where
  readBlock _ _ _ h := h
  writeBlock _ _ _ _ _ h := pedir_servible (by simp) (by simp) h
  create _ _ h := pedirFileTag_servible (by simp) (by simp) h
  truncate st a n hlibre h := by
    refine pedirFileTag_servible (fun p hp m heq => ?_) (by simp) h
    obtain ⟨hfile, htag, -⟩ := Solicitud.truncate.inj heq
    exact ne_of_unaPagina (hlibre p hp) (Prod.ext hfile htag)
  tag st a a' h := by
    simp only [servidorStorage]
    split
    · exact h
    · exact pedirFileTag_servible (by simp) (by simp) h
  commit _ _ h := pedirFileTag_servible (by simp) (by simp) h
  flush _ _ _ h := pedir_servible (by simp) (by simp) h
  delete st f' t' hlibre h := by
    refine pedir_servible (by simp) (fun heq => ?_) h
    obtain ⟨hfile, htag⟩ := Solicitud.delete.inj heq
    exact ne_of_unaPagina hlibre (Prod.ext hfile htag)

end Servidor

section Estabilidad

theorem celda_pedir (h : Coherente sb s) {x : Solicitud}
    (hx : ∀ f t n contenido, x ≠ .writeBlock f t n contenido) :
    celda (pedir md5 sb s x).1 = celda s := by
  unfold pedir
  cases hres : atenderWorker md5 sb s x with
  | error e => rfl
  | ok r =>
    have hpaso : paso md5 sb s x = .ok r.1 := by rw [paso, hres, Except.map]
    have harchivos := ((conserva_archivos s.disco.physicalBlocks hx).paso h rfl hpaso).2
    unfold celda
    rw [harchivos]

theorem celda_pedirFileTag (h : Coherente sb s) {a : String} {x : String → String → Solicitud}
    (hx : ∀ file tag f t n contenido, x file tag ≠ .writeBlock f t n contenido) :
    celda (pedirFileTag md5 sb s a x).1 = celda s := by
  unfold pedirFileTag
  cases WorkerInstructions.separarFileTag a with
  | none => rfl
  | some p => exact celda_pedir h (hx p.1 p.2)

theorem celda_dentro {α : Type*} {I : Storage → Prop} {st : { s // I s }} {r : Storage × α}
    (h : celda r.1 = celda st.1) : celda (dentro st r).1.1 = celda st.1 := by
  unfold dentro
  dsimp only
  split_ifs
  · exact h
  · rfl

theorem leerBloque_of_servible (hf : ':' ∉ f.toList) (h : Servible sb f t s) :
    leerBloque sb s (f ++ ":" ++ t) 0 = some (celda s) := by
  have hcero : toInt32 0 = ((0 : ℕ) : ℤ) := rfl
  unfold leerBloque
  rw [WorkerInstructions.separarFileTag_append hf]
  dsimp only
  rw [hcero, storageReadBlock_eq h.1, if_neg (by simp), Int.toNat_natCast,
    contenidoDe_of_servible h]
  rfl

theorem writeBlock_of_servible (md5 : Bytes → String) (h : Servible sb f t s) {b : Bytes}
    (hb : b.length = sb.blockSize) :
    ∃ s', (servidorStorage md5 sb).writeBlock s f t 0 b = (s', true) ∧ celda s' = b := by
  obtain ⟨bl, he⟩ := escribible_of_servible h hb
  refine ⟨_, ?_, celda_escribirCero md5 s (celda s) (length_celda h.1) hb⟩
  change pedir md5 sb s (.writeBlock f t 0 b) = _
  have hres : atenderWorker md5 sb s (.writeBlock f t 0 b) =
      .ok (escribirCero md5 sb s (celda s) b, .ok) := congrArg Except.ok (write_aceptado h.1 he)
  unfold pedir
  rw [hres]
  rfl

theorem valida_unaPagina {k : Clave} (h : Valida (unaPagina f t) k) : k = ((f, t), 0) := by
  unfold Valida unaPagina at h
  split_ifs at h with hk
  · exact Prod.ext hk (Nat.lt_one_iff.mp h)
  · exact absurd h (Nat.not_lt_zero _)

theorem storageEstable_restringido (md5 : Bytes → String) (sb : Superbloque) (ram : Ram)
    (hf : ':' ∉ f.toList) :
    StorageEstable (restringido (servidorStorage md5 sb) (Servible sb f t)) (conBloques sb ram)
      (unaPagina f t) fun st _ => celda st.1 where
  numeros ft := by
    unfold unaPagina
    split_ifs <;> omega
  direcciones ft := by
    have hbloque : (conBloques sb ram).pageSize = sb.blockSize := rfl
    have hle := sb.block_le
    have hint := sb.int_range
    unfold unaPagina
    split_ifs <;> omega
  largo st k _ := length_celda st.2.1
  lectura st f' t' p hp := by
    obtain ⟨⟨rfl, rfl⟩, rfl⟩ : (f' = f ∧ t' = t) ∧ p = 0 := by
      simpa using valida_unaPagina (k := ((f', t'), p)) hp
    refine ⟨st, ?_, fun _ _ => rfl⟩
    refine (dentro_eq st st.2).trans ?_
    exact congrArg (Prod.mk st) (leerBloque_of_servible hf st.2)
  escritura st f' t' p b hp hb := by
    obtain ⟨⟨rfl, rfl⟩, rfl⟩ : (f' = f ∧ t' = t) ∧ p = 0 := by
      simpa using valida_unaPagina (k := ((f', t'), p)) hp
    have hservible := (cerrado_servidorStorage md5 sb f' t').writeBlock st.1 f' t' 0 b st.2
    obtain ⟨s', hescribe, hcelda⟩ := writeBlock_of_servible md5 st.2 hb
    rw [hescribe] at hservible
    refine ⟨⟨s', hservible⟩, ?_, fun k hk => ?_⟩
    · change dentro st ((servidorStorage md5 sb).writeBlock st.1 f' t' 0 b) = _
      rw [hescribe, dentro_eq st hservible]
    · rw [valida_unaPagina hk, Function.update_self]
      exact hcelda
  create st a k _ := celda_dentro (celda_pedirFileTag st.2.1 (by simp))
  truncate st a n _ k _ := celda_dentro (celda_pedirFileTag st.2.1 (by simp))
  tag st a a' k _ := by
    refine celda_dentro ?_
    simp only [servidorStorage]
    split
    · rfl
    · exact celda_pedirFileTag st.2.1 (by simp)
  commit st a k _ := celda_dentro (celda_pedirFileTag st.2.1 (by simp))
  flush st f' t' k _ := celda_dentro (celda_pedir st.2.1 (by simp))
  delete st f' t' _ k _ := celda_dentro (celda_pedir st.2.1 (by simp))

end Estabilidad

section Consultas

/-- The array of one block that the page stands for. -/
def planoDeCelda (f t : String) (c : Bytes) : Plano := fun ft => if ft = (f, t) then c else []

theorem planoDe_unaPagina (f t : String) (c : Bytes) :
    planoDe (unaPagina f t) (fun _ => c) = planoDeCelda f t c := by
  funext ft
  unfold planoDe unaPagina planoDeCelda
  split_ifs
  · simp
  · rfl

theorem permitida_of_admitida {ram : Ram} {paginas : String × String → ℕ} {inst : Instruccion}
    (h : Admitida ram paginas inst) :
    Permitida (fun a _ => ∀ p ∈ WorkerInstructions.separarFileTag a, paginas p = 0)
      (fun p => paginas p = 0) inst where
  truncate hc := ajeno_texto (h.truncate hc)
  delete hc := ajeno_texto (h.delete hc)

/-- From every state the Storage reaches, a Worker does to the page of a Tag that is linked
to block0000 what its Queries do to an array of one block, for every stream from the Master,
whatever the size of its memory, its algorithm and its clock. -/
theorem escuchar_enCelda_valores (md5 : Bytes → String) (sb : Superbloque) (ram : Ram)
    (reloj : Reloj) (hs : Alcanzable md5 sb s) (hf : ':' ∉ f.toList) (hcelda : EnCelda f t s)
    (hmarcos : 0 < (conBloques sb ram).frames) {archivos : Bytes → Option Bytes}
    (harchivos : ArchivosAdmitidos (Admitida (conBloques sb ram) (unaPagina f t)) archivos)
    (pathQueries b : Bytes) :
    escuchar (ejecutores (conBloques sb ram) reloj (servidorStorage md5 sb)) archivos pathQueries
        (bucleInicial (procesoInicial (conBloques sb ram) s)) b =
      escuchar enPlano archivos pathQueries (bucleInicial (planoDeCelda f t (celda s))) b := by
  have hestable := storageEstable_restringido md5 sb ram hf (t := t)
  have himagen := morfismo_restringido (cerrado_servidorStorage md5 sb f t)
  have hpermitidos := harchivos.mono fun inst => permitida_of_admitida
  rw [← planoDe_unaPagina]
  refine (escuchar_imagen himagen (conBloques sb ram) reloj hpermitidos pathQueries
    ⟨s, coherente_alcanzable hs, hcelda⟩ b).trans ?_
  exact escuchar_enPlano reloj hestable hmarcos harchivos pathQueries _ b

end Consultas

end MasterOfFiles.CellQueries
