import MasterOfFiles.LinkAgreement
import MasterOfFiles.RunTraces
import MasterOfFiles.SharedStrings

/-!
That the Storage answers. A request goes without an answer where its thread locks a mutex
twice, where COMMIT reads a logical block that has no link, or where a string is used that
has been freed. No run from a fresh start brings up the counts that the first needs, only a
DELETE that exposes a second Tag of the same name leaves logical blocks without links, and
the third is watched beside the run.
-/
namespace MasterOfFiles.StorageAnswers

open BlockNames ByteBuffers StorageState StorageFiles StorageOperations PartialRuns RunTraces
open TagLookups BlockZero RequestEffects TruncateEffects ReachableStates
open LinkAgreement WatchedRuns PlainNames SharedStrings

variable {md5 : Bytes → String} {sb : Superbloque} {s s' : Storage} {f t : String}

/-- Every logical block of a Tag that is found is on disk, and the names of a Tag's
blocks are different. -/
structure Enlazada (s : Storage) : Prop where
  enlaces : ∀ f t tag, buscarTag s f t = some tag → ∀ bl ∈ tag.listaBlockLogicos,
    (s.disco.links (rutaBlockLogico f t bl.nombreBlock)).isSome
  nombres : TodoTag (fun _ tag => (tag.listaBlockLogicos.map BlockLogico.nombreBlock).Nodup) s

section Pasos

theorem enlazada_modificarTag (h : Enlazada s) (f t : String) {g : Tag → Tag}
    (hname : ∀ tag, (g tag).nameTag = tag.nameTag)
    (hlista : ∀ tag, buscarTag s f t = some tag →
      (g tag).listaBlockLogicos = tag.listaBlockLogicos) : Enlazada (modificarTag s f t g) := by
  constructor
  · intro f' t' tag' htag'
    by_cases heq : rutaTag f' t' = rutaTag f t
    · obtain ⟨rfl, rfl⟩ := Prod.mk.inj heq
      rw [buscarTag_modificarTag_self s hname] at htag'
      obtain ⟨tag, htag, rfl⟩ := Option.map_eq_some_iff.mp htag'
      rw [hlista tag htag]
      exact h.enlaces f' t' tag htag
    · rw [buscarTag_modificarTag_ne s hname heq] at htag'
      exact h.enlaces f' t' tag' htag'
  · apply h.nombres.modificarTag
    intro tag htag hnodup
    rw [hlista tag htag]
    exact hnodup

/-- The name a growth loop links is a new one of the Tag. -/
theorem enlazada_ampliar (h : Enlazada s) {nro : ℤ} {k : ℕ} (ha : Ampliable sb s f t nro k) :
    Enlazada (ampliar s f t nro k) := by
  constructor
  · intro f' t' tag' htag' bl hbl
    rw [links_ampliar, Function.update_apply]
    by_cases hruta : rutaBlockLogico f' t' bl.nombreBlock =
        rutaBlockLogico f t (crearNombreBloqueLogico nro)
    · rw [if_pos hruta]
      rfl
    · rw [if_neg hruta]
      by_cases heq : rutaTag f' t' = rutaTag f t
      · obtain ⟨rfl, rfl⟩ := Prod.mk.inj heq
        rw [buscarTag_ampliar_self] at htag'
        obtain ⟨tag, htag, rfl⟩ := Option.map_eq_some_iff.mp htag'
        rcases List.mem_append.mp hbl with hold | hnew
        · exact h.enlaces f' t' tag htag bl hold
        · obtain rfl := List.mem_singleton.mp hnew
          exact absurd rfl hruta
      · rw [buscarTag_ampliar_ne heq] at htag'
        exact h.enlaces f' t' tag' htag' bl hbl
  · have hmarcado : TodoTag (fun _ tag =>
        (tag.listaBlockLogicos.map BlockLogico.nombreBlock).Nodup) { s with
          bitmap := bitmapMarcarBloqueOcupado s.bitmap k
          disco := { s.disco with
            links := Function.update s.disco.links
              (rutaBlockLogico f t (crearNombreBloqueLogico nro))
              (some (nombreBloqueFisico k)) } } := h.nombres
    apply hmarcado.modificarTag
    intro tag htag hnodup
    have hnuevo : crearNombreBloqueLogico nro ∉
        tag.listaBlockLogicos.map BlockLogico.nombreBlock := by
      intro hmem
      obtain ⟨bl, hbl, hname⟩ := List.mem_map.mp hmem
      have hlink := h.enlaces f t tag htag bl hbl
      rw [hname, ha.sin_enlace] at hlink
      exact Bool.false_ne_true hlink
    change ((tag.listaBlockLogicos ++ [_]).map BlockLogico.nombreBlock).Nodup
    rw [List.map_append, List.map_singleton, List.nodup_append_comm, List.singleton_append]
    exact List.nodup_cons.mpr ⟨hnuevo, hnodup⟩

theorem enlazada_reducir (h : Enlazada s) (f t : String) : Enlazada (reducir s f t) := by
  cases htag : buscarTag s f t with
  | none =>
    unfold reducir
    rw [htag]
    exact h
  | some tag =>
    cases hlast : tag.listaBlockLogicos.getLast? with
    | none =>
      rw [reducir_vacio htag hlast]
      exact h
    | some bl =>
      have hnodup := h.nombres.of_buscarTag htag
      obtain ⟨bls, hbls⟩ := List.getLast?_eq_some_iff.mp hlast
      rw [hbls, List.map_append, List.map_singleton, List.nodup_append_comm,
        List.singleton_append, List.nodup_cons] at hnodup
      have hdisco : (reducir s f t).disco.links =
          Function.update s.disco.links (rutaBlockLogico f t bl.nombreBlock) none := by
        rw [reducir_eq htag hlast]
        rfl
      constructor
      · intro f' t' tag' htag' bl' hbl'
        rw [hdisco]
        by_cases heq : rutaTag f' t' = rutaTag f t
        · obtain ⟨rfl, rfl⟩ := Prod.mk.inj heq
          rw [buscarTag_reducir_self, htag, Option.map_some] at htag'
          obtain rfl := Option.some.inj htag'
          rw [quitarUltimo, hbls, List.dropLast_concat] at hbl'
          have hruta : rutaBlockLogico f' t' bl'.nombreBlock ≠
              rutaBlockLogico f' t' bl.nombreBlock := by
            intro heq'
            have hname : bl'.nombreBlock = bl.nombreBlock :=
              (Prod.mk.inj (Prod.mk.inj heq').2).2
            exact hnodup.1 (hname ▸ List.mem_map_of_mem hbl')
          rw [Function.update_of_ne hruta]
          exact h.enlaces f' t' tag htag bl' (hbls ▸ List.mem_append_left _ hbl')
        · rw [buscarTag_reducir_ne s heq] at htag'
          rw [Function.update_of_ne (rutaBlockLogico_ne heq _ _)]
          exact h.enlaces f' t' tag' htag' bl' hbl'
      · rw [reducir_eq htag hlast]
        apply h.nombres.modificarTag (g := quitarUltimo)
        intro tag' _ hnodup'
        exact hnodup'.sublist ((List.dropLast_sublist _).map _)

theorem enlazada_terminar (h : Enlazada s) (f t : String) (tamanio : ℤ) :
    Enlazada (terminarTruncate s f t tamanio) := by
  obtain ⟨mc, hmc⟩ := terminarTruncate_eq s f t tamanio
  have hmodificar := enlazada_modificarTag h f t (nameTag_fijarTamanio tamanio) fun _ _ => rfl
  rw [hmc]
  exact ⟨hmodificar.enlaces, hmodificar.nombres⟩

/-- A copy has all its names linked, the new ones and those that were there. -/
theorem enlazada_copiarTag (h : Enlazada s) {fo tgo : String} {tag : Tag}
    (htag : buscarTag s fo tgo = some tag) (f t : String)
    (mc : RutaTag → Option ConfigText.Config) : Enlazada (copiarTag s f t tag mc) := by
  constructor
  · intro f' t' tag' htag' bl hbl
    rw [buscarTag_copiarTag] at htag'
    change (enlazarCero s.disco.links (rutaTag f t)
      (tag.listaBlockLogicos.map BlockLogico.nombreBlock) _).isSome
    unfold enlazarCero
    split_ifs with hcero
    · rfl
    · rcases Option.or_eq_some_iff.mp htag' with hold | ⟨-, hnew⟩
      · exact h.enlaces f' t' tag' hold bl hbl
      · split_ifs at hnew with heq
        obtain ⟨rfl, rfl⟩ := heq
        obtain rfl := Option.some.inj hnew
        rw [Option.isSome_iff_ne_none]
        exact fun hnone => hcero ⟨rfl, List.mem_map_of_mem hbl, hnone⟩
  · have hnodup := h.nombres.of_buscarTag htag
    exact (h.nombres.asegurarFile f).agregarTag hnodup

theorem enlazada_creado (h : Enlazada s) (f t : String)
    (mc : RutaTag → Option ConfigText.Config) : Enlazada (creado s f t mc) := by
  constructor
  · intro f' t' tag' htag' bl hbl
    rw [buscarTag_creado] at htag'
    rcases Option.or_eq_some_iff.mp htag' with hold | ⟨-, hnew⟩
    · exact h.enlaces f' t' tag' hold bl hbl
    · split_ifs at hnew
      obtain rfl := Option.some.inj hnew
      exact absurd hbl List.not_mem_nil
  · exact (h.nombres.crearFile f).agregarTag List.nodup_nil

/-- A DELETE that exposes no Tag with blocks. -/
def SinGemelo (s : Storage) : Solicitud → Prop
  | .delete f t => ∀ tag, gemelo s f t = some tag → tag.listaBlockLogicos = []
  | _ => True

instance (s : Storage) : DecidablePred (SinGemelo s)
  | .delete f t => inferInstanceAs (Decidable (∀ tag ∈ gemelo s f t, tag.listaBlockLogicos = []))
  | .create .. | .truncate .. | .tag .. | .commit .. | .writeBlock .. | .readBlock ..
  | .flush .. => isTrue trivial

theorem enlazada_eliminado (h : Enlazada s) (hgemelo : SinGemelo s (.delete f t)) (tag : Tag) :
    Enlazada (eliminado s f t tag) := by
  have hself : buscarTag (eliminado s f t tag) f t = gemelo s f t :=
    buscarTag_quitarTag_self s f t
  constructor
  · intro f' t' tag' htag' bl hbl
    by_cases heq : rutaTag f' t' = rutaTag f t
    · obtain ⟨rfl, rfl⟩ := Prod.mk.inj heq
      rw [hself] at htag'
      rw [hgemelo tag' htag'] at hbl
      exact absurd hbl List.not_mem_nil
    · have hotro : buscarTag (eliminado s f t tag) f' t' = buscarTag s f' t' :=
        buscarTag_quitarTag_ne s heq
      rw [hotro] at htag'
      rw [links_eliminado, directorio_rutaBlockLogico, if_neg heq]
      exact h.enlaces f' t' tag' htag' bl hbl
  · exact h.nombres.quitarTag f t

/-- The requests other than DELETE keep every block on disk. -/
theorem conserva_enlazada {x : Solicitud} (hx : ∀ f t, x ≠ .delete f t) :
    Conserva md5 sb Enlazada x where
  crear _ f t mc _ _ h _ := enlazada_creado h f t mc
  ampliar _ _ _ _ _ _ _ _ h _ ha := enlazada_ampliar h ha
  reducir _ f t _ _ _ h _ := enlazada_reducir h f t
  terminar _ f t tamanio _ _ h _ := enlazada_terminar h f t tamanio
  copiar _ _ _ f t _ mc _ _ h htag := enlazada_copiarTag h htag f t mc
  commitear _ f t tag _ _ _ _ _ h htag _ _ _ := by
    have hmodificar := enlazada_modificarTag h f t (nameTag_commitear tag.listaBlockLogicos)
      fun tag' htag' => by
        obtain rfl := Option.some.inj (htag.symm.trans htag')
        rfl
    exact ⟨hmodificar.enlaces, hmodificar.nombres⟩
  escribir _ _ _ _ _ _ _ _ _ h _ := ⟨h.enlaces, h.nombres⟩
  eliminar _ f t _ heq _ _ _ := absurd heq (hx f t)

theorem enlazada_paso {x : Solicitud} (h : Coherente sb s) (henlazada : Enlazada s)
    (hx : SinGemelo s x) (hop : paso md5 sb s x = .ok s') : Enlazada s' := by
  by_cases hdelete : ∃ f t, x = .delete f t
  · obtain ⟨f, t, rfl⟩ := hdelete
    rcases paso_delete h hop with ⟨rfl, -⟩ | ⟨tag, -, rfl⟩
    · exact henlazada
    · exact enlazada_eliminado henlazada hx tag
  · have hno : ∀ f t, x ≠ .delete f t := fun f t heq => hdelete ⟨f, t, heq⟩
    exact ((conserva_enlazada hno).paso h henlazada hop).2

end Pasos

section Respuestas

theorem exists_truncate (h : Coherente sb s) (f t : String) (tamanio : ℤ) :
    ∃ p, operacionTruncateFile sb s f t tamanio = .ok p := by
  by_cases ht : ∃ tag, Truncable sb s f t tamanio tag
  · obtain ⟨tag, ht⟩ := ht
    rcases lt_or_ge (cantidadBloques sb tag.metadata.tamanioFile) (cantidadBloques sb tamanio)
      with hlt | hle
    · obtain ⟨s', c, hop, -⟩ := truncate_agranda ht hlt
      exact ⟨(s', c), hop⟩
    · exact ⟨_, truncate_achica h ht hle⟩
  · obtain ⟨c, hop⟩ := truncate_rechazado fun tag htag => ht ⟨tag, htag⟩
    exact ⟨(s, c), hop⟩

/-- COMMIT reads every block it goes over: its changes of the index move no link. -/
theorem exists_procesarBloques (md5 : Bytes → String) (h : Coherente sb s)
    {bls : List BlockLogico}
    (hbls : ∀ bl ∈ bls, bl.bloqueFisicoAsociado = bloqueFisicoInicial)
    (henlaces : ∀ bl ∈ bls, (s.disco.links (rutaBlockLogico f t bl.nombreBlock)).isSome) :
    ∃ p, procesarBloques md5 f t s bls = .ok p := by
  induction bls generalizing s with
  | nil => exact ⟨(s, []), rfl⟩
  | cons bl bls ih =>
    obtain ⟨b, hb⟩ := Option.isSome_iff_exists.mp (henlaces bl (List.mem_cons_self ..))
    obtain ⟨c, hc, -, -⟩ := h.getContenido_of_link hb
    have hhead : ∃ p, procesarBloqueCommit md5 f t s bl = .ok p := by
      unfold procesarBloqueCommit
      simp only [hc]
      split
      · exact ⟨_, rfl⟩
      · split_ifs <;> exact ⟨_, rfl⟩
    obtain ⟨⟨s₁, bl₁⟩, hhead⟩ := hhead
    obtain ⟨-, -, index, guardado, rfl, hindex⟩ :=
      procesarBloqueCommit_ok h (hbls bl (List.mem_cons_self ..)) hhead
    obtain ⟨p, htail⟩ := ih (coherente_cambiarIndice h hindex guardado)
      (fun bl' hbl' => hbls bl' (List.mem_cons_of_mem _ hbl'))
      fun bl' hbl' => henlaces bl' (List.mem_cons_of_mem _ hbl')
    unfold procesarBloques
    simp only [hhead, htail]
    exact ⟨_, rfl⟩

theorem exists_commit (md5 : Bytes → String) (h : Coherente sb s) (henlazada : Enlazada s)
    (f t : String) : ∃ p, operacionCommitTag md5 s f t = .ok p := by
  unfold operacionCommitTag
  cases htag : buscarTag s f t with
  | none => exact ⟨_, rfl⟩
  | some tag =>
    obtain ⟨p, hop⟩ := exists_procesarBloques md5 h (h.tag_cero htag).asociados
      (henlazada.enlaces f t tag htag)
    dsimp only
    split_ifs
    · exact ⟨_, rfl⟩
    · rw [hop]
      exact ⟨_, rfl⟩

/-- Where every block is on disk no request is left without an answer. -/
theorem exists_paso (h : Coherente sb s) (henlazada : Enlazada s) (x : Solicitud) :
    ∃ s', paso md5 sb s x = .ok s' := by
  cases x with
  | truncate f t tamanio =>
    obtain ⟨p, hop⟩ := exists_truncate h f t tamanio
    unfold paso atenderWorker
    simp only [hop]
    exact ⟨_, rfl⟩
  | commit f t =>
    obtain ⟨p, hop⟩ := exists_commit md5 h henlazada f t
    unfold paso atenderWorker storageCommit
    simp only [hop]
    exact ⟨_, rfl⟩
  | _ => exact ⟨_, rfl⟩

theorem enlazada_freshStart (sb : Superbloque) : Enlazada (freshStart sb) := by
  obtain ⟨hlinks, halineado⟩ := acorde_freshStart sb
  constructor
  · intro f t tag htag bl hbl
    rw [hlinks f t tag htag bl hbl]
    rfl
  · exact halineado.nombres

theorem responde_valores (md5 : Bytes → String) (sb : Superbloque) {xs : List Solicitud}
    (h : EachStep (paso md5 sb) SinGemelo (freshStart sb) xs) :
    ∃ s, run (paso md5 sb) (freshStart sb) xs = .ok s := by
  have hstep : ∀ s x s', Coherente sb s ∧ Enlazada s → SinGemelo s x →
      paso md5 sb s x = .ok s' → Coherente sb s' ∧ Enlazada s' := by
    intro s x s' hs hx hop
    exact ⟨coherente_paso hs.1 hop, enlazada_paso hs.1 hs.2 hx hop⟩
  exact exists_run_of_eachStep hstep (fun s x hs => exists_paso hs.1 hs.2 x)
    ⟨coherente_freshStart sb, enlazada_freshStart sb⟩ h

/-- Every request of a run of plain requests from a fresh start is answered, unless one of
them uses a freed string or a DELETE exposes a second Tag of that name which has blocks. -/
theorem responde_run (md5 : Bytes → String) (sb : Superbloque) {raiz : Bytes}
    {xs : List (Pedido raiz)}
    (h : EachStep (pasoVigilado md5 sb)
      (fun c x => SinTocarLiberadas md5 sb c x ∧ SinGemelo c.state x) (inicio sb) xs.unattach) :
    ∃ c, run (pasoVigilado md5 sb) (inicio sb) xs.unattach = .ok c ∧ c.known = true := by
  obtain ⟨hsin, hgemelo⟩ := (eachStep_watched_iff SinGemelo rfl xs.unattach).mp h
  obtain ⟨s, hrun⟩ := responde_valores md5 sb hgemelo
  obtain ⟨c, hc, hconocido, -⟩ := exists_run_watched rfl hsin hrun
  exact ⟨c, hc, hconocido⟩

/-- A Tag that grows and one that is a copy, committed or deleted. -/
def pedidosVarios : List (Pedido raizChica) :=
  [Solicitud.create "a" "b", .tag "initial_file" "BASE" "c" "d", .truncate "a" "b" 4,
    .commit "a" "b", .delete "a" "b", .delete "c" "d", .commit "c" "d"].attachWith
      (Llana raizChica) (by decide)

theorem responde_run_varios : ∃ c, run (pasoVigilado hashLegible superbloqueChico)
    (inicio superbloqueChico) pedidosVarios.unattach = .ok c ∧ c.known = true :=
  responde_run hashLegible superbloqueChico (by decide)

/-- TAG shares the one string that the two DELETEs free. -/
example : (run (pasoVigilado hashLegible superbloqueChico) (inicio superbloqueChico)
    [.tag "initial_file" "BASE" "a" "b", .delete "a" "b", .delete "initial_file" "BASE"]).map
      Watched.known = .ok false := rfl

/-- The second copy of a Tag has lost its links to the DELETE of the first. -/
example : run (paso hashLegible superbloqueChico) (freshStart superbloqueChico)
    [.tag "initial_file" "BASE" "a" "b", .tag "initial_file" "BASE" "a" "b", .delete "a" "b",
      .commit "a" "b"] = .error .caida := rfl

end Respuestas

end MasterOfFiles.StorageAnswers
