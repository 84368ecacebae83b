import MasterOfFiles.AccessBounds
import MasterOfFiles.StorageLockstep

/-!
The File:Tag an instruction names, on both sides of the socket. The Worker cuts its
argument with separar_FileTag and keeps the two halves as the key of its pages; a request
carries the argument, the halves, or the halves joined again, and Storage cuts what comes
whole with split_file_tag. All of them end in the same File:Tag, since both cut at the
first colon and the half in front of it has none. A Storage that writes down what it is
asked shows it for every request of an instruction.
-/
namespace MasterOfFiles.NameResolution

open ByteBuffers Packets PartialRuns WorkerMemory FrameTables ReplacementPolicies StorageOperations
open TransparentPaging (ramChica relojParado servidorChico)
open StorageMessages (Orden Emitida texto mensaje lectorDe solicitudDe)
open StorageLockstep (lectorDe_mensaje)
open TagDirectories (FileTag splitFileTag splitFileTag_unir)
open WorkerInstructions hiding separarFileTag separarFileTag_append

section Separadores

/-- separar_FileTag of the Worker: the bytes in front of the first colon and those behind. -/
def separarFileTag (filetag : Bytes) : Option (Bytes × Bytes) :=
  match filetag.findIdx? (· = 58) with
  | none => none
  | some sep => some (filetag.take sep, filetag.drop (sep + 1))

/-- "%s:%s" of lectura_pagina_storage. -/
def unir (file tag : Bytes) : Bytes := file ++ 58 :: tag

def mitades (p : FileTag) : Bytes × Bytes := (p.file, p.tag)

/-- A text with a colon is cut at the first one. -/
theorem separarFileTag_unir {file : Bytes} (hfile : 58 ∉ file) (tag : Bytes) :
    separarFileTag (unir file tag) = some (file, tag) := by
  have hidx : (unir file tag).findIdx? (· = 58) = some file.length := by
    unfold unir
    rw [List.findIdx?_append, List.findIdx?_eq_none_iff.mpr, Option.none_or, List.findIdx?_cons]
    · simp
    · intro b hb
      exact decide_eq_false fun heq => hfile (heq ▸ hb)
  unfold separarFileTag
  rw [hidx]
  unfold unir
  simp only [List.take_left, ← List.drop_drop, List.drop_left]
  rfl

theorem exists_unir_of_mem {s : Bytes} (hs : 58 ∈ s) :
    ∃ file tag, 58 ∉ file ∧ s = unir file tag := by
  obtain ⟨file, tag, hs, hfile⟩ := List.eq_append_cons_of_mem hs
  exact ⟨file, tag, hfile, hs⟩

theorem separarFileTag_eq_none {s : Bytes} (hs : 58 ∉ s) :
    separarFileTag s = none ∧ splitFileTag s = none := by
  have hpos : ∀ b ∈ s, decide (b ≠ 58) = true := by
    intro b hb
    exact decide_eq_true fun heq => hs (heq ▸ hb)
  constructor
  · unfold separarFileTag
    rw [List.findIdx?_eq_none_iff.mpr]
    intro b hb
    exact decide_eq_false fun heq => hs (heq ▸ hb)
  · unfold splitFileTag
    rw [List.dropWhile_eq_nil_iff.mpr hpos]

/-- The two programs cut a text alike, or neither cuts it. -/
theorem separarFileTag_eq (s : Bytes) : separarFileTag s = (splitFileTag s).map mitades := by
  by_cases hs : 58 ∈ s
  · obtain ⟨file, tag, hfile, rfl⟩ := exists_unir_of_mem hs
    have hsplit : splitFileTag (unir file tag) = some ⟨file, tag, hfile⟩ :=
      splitFileTag_unir ⟨file, tag, hfile⟩
    rw [separarFileTag_unir hfile, hsplit, Option.map_some]
    rfl
  · obtain ⟨hsep, hsplit⟩ := separarFileTag_eq_none hs
    rw [hsep, hsplit, Option.map_none]

/-- The halves of a text: its split, without a colon in front. -/
theorem separarFileTag_eq_some_iff {s file tag : Bytes} :
    separarFileTag s = some (file, tag) ↔ 58 ∉ file ∧ s = unir file tag := by
  constructor
  · intro h
    by_cases hs : 58 ∈ s
    · obtain ⟨file', tag', hfile, rfl⟩ := exists_unir_of_mem hs
      rw [separarFileTag_unir hfile] at h
      obtain ⟨rfl, rfl⟩ := Prod.mk.inj (Option.some.inj h)
      exact ⟨hfile, rfl⟩
    · rw [(separarFileTag_eq_none hs).1] at h
      simp at h
  · intro h
    rw [h.2, separarFileTag_unir h.1]

end Separadores

section Textos

theorem toList_texto (b : Bytes) : (texto b).toList = b.map fun x => Char.ofNat x.toNat :=
  String.toList_ofList

theorem toNat_ofNat_byte (x : UInt8) : (Char.ofNat x.toNat).toNat = x.toNat := by
  have hlt := x.toNat_lt
  have hvalid : x.toNat.isValidChar := Or.inl (by omega)
  unfold Char.ofNat
  rw [dif_pos hvalid]
  rfl

theorem ofNat_toNat_eq_colon_iff (x : UInt8) : Char.ofNat x.toNat = ':' ↔ x = 58 := by
  constructor
  · intro h
    have htoNat := congrArg Char.toNat h
    rw [toNat_ofNat_byte] at htoNat
    exact UInt8.toNat_inj.mp htoNat
  · intro h
    rw [h]
    rfl

theorem texto_injective : Function.Injective texto := by
  intro b b' h
  have hlist := congrArg String.toList h
  rw [toList_texto, toList_texto] at hlist
  refine List.map_injective_iff.mpr (fun x y hxy => ?_) hlist
  have htoNat := congrArg Char.toNat hxy
  rw [toNat_ofNat_byte, toNat_ofNat_byte] at htoNat
  exact UInt8.toNat_inj.mp htoNat

theorem texto_unir (file tag : Bytes) : texto (unir file tag) = texto file ++ ":" ++ texto tag := by
  apply String.toList_inj.mp
  rw [String.toList_append, String.toList_append, toList_texto, toList_texto, toList_texto]
  unfold unir
  rw [List.map_append, List.map_cons, List.append_assoc]
  rfl

theorem colon_mem_texto_iff (b : Bytes) : ':' ∈ (texto b).toList ↔ 58 ∈ b := by
  rw [toList_texto, List.mem_map]
  constructor
  · intro h
    obtain ⟨x, hx, heq⟩ := h
    exact (ofNat_toNat_eq_colon_iff x).mp heq ▸ hx
  · intro h
    exact ⟨58, h, rfl⟩

/-- With one character a byte the halves are those of the bytes. -/
theorem separarFileTag_texto (s : Bytes) : WorkerInstructions.separarFileTag (texto s) =
    (separarFileTag s).map fun p => (texto p.1, texto p.2) := by
  by_cases hs : 58 ∈ s
  · obtain ⟨file, tag, hfile, rfl⟩ := exists_unir_of_mem hs
    have hno : ':' ∉ (texto file).toList := fun h => hfile ((colon_mem_texto_iff file).mp h)
    rw [separarFileTag_unir hfile, texto_unir,
      WorkerInstructions.separarFileTag_append hno, Option.map_some]
  · rw [(separarFileTag_eq_none hs).1, Option.map_none]
    unfold WorkerInstructions.separarFileTag
    rw [List.dropWhile_eq_nil_iff.mpr]
    intro c hc
    exact decide_eq_true fun heq => hs ((colon_mem_texto_iff s).mp (heq ▸ hc))

end Textos

section Mensajes

/-- The requests of an instruction whose argument `s` has the halves `file` and `tag`. -/
inductive DelArgumento (s file tag : Bytes) : Orden → Prop
  | create (qid : Entero) : DelArgumento s file tag (.create qid s)
  | truncate (qid tamanio : Entero) : DelArgumento s file tag (.truncate qid s tamanio)
  | commit (qid : Entero) : DelArgumento s file tag (.commit qid s)
  | flush (qid : Entero) : DelArgumento s file tag (.flush qid file tag)
  | delete (qid : Entero) : DelArgumento s file tag (.delete qid file tag)
  | readBlock (qid nroPag : Entero) : DelArgumento s file tag (.readBlock qid file tag nroPag)
  | writeBlock (qid nroPag : Entero) (contenido : Bytes) :
    DelArgumento s file tag (.writeBlock qid file tag nroPag contenido)

/-- The File:Tags an operation of Storage is about. -/
def fileTagsDe : Solicitud → List (String × String)
  | .tag fileO tagO fileD tagD => [(fileO, tagO), (fileD, tagD)]
  | .create file tag | .truncate file tag _ | .commit file tag | .writeBlock file tag _ _
  | .readBlock file tag _ | .flush file tag | .delete file tag => [(file, tag)]

/-- What a request is about, whichever way it carries the name. -/
theorem solicitudDe_argumento {s file tag : Bytes} {o : Orden}
    (h : separarFileTag s = some (file, tag)) (ho : DelArgumento s file tag o) :
    ∃ x, solicitudDe o = some x ∧ fileTagsDe x = [(texto file, texto tag)] := by
  obtain ⟨hfile, rfl⟩ := separarFileTag_eq_some_iff.mp h
  have hsplit : splitFileTag (unir file tag) = some ⟨file, tag, hfile⟩ :=
    splitFileTag_unir ⟨file, tag, hfile⟩
  cases ho with
  | create qid => exact ⟨_, by rw [solicitudDe, hsplit, Option.map_some], rfl⟩
  | truncate qid tamanio => exact ⟨_, by rw [solicitudDe, hsplit, Option.map_some], rfl⟩
  | commit qid => exact ⟨_, by rw [solicitudDe, hsplit, Option.map_some], rfl⟩
  | flush qid => exact ⟨_, rfl, rfl⟩
  | delete qid => exact ⟨_, rfl, rfl⟩
  | readBlock qid nroPag => exact ⟨_, rfl, rfl⟩
  | writeBlock qid nroPag contenido => exact ⟨_, rfl, rfl⟩

end Mensajes

section Pedidos

variable {σ : Type*}

/-- What the Worker asks of Storage. -/
inductive Pedido
  | readBlock (fileTag : String) (nroPag : ℕ)
  | writeBlock (file tag : String) (nroPag : ℕ) (contenido : Bytes)
  | create (fileTag : String)
  | truncate (fileTag : String) (tamanio : ℤ)
  | tag (origen destino : String)
  | commit (fileTag : String)
  | flush (file tag : String)
  | delete (file tag : String)
  deriving DecidableEq

def anotar {α : Type*} (pedidos : List Pedido) (p : Pedido) (r : σ × α) :
    (σ × List Pedido) × α := ((r.1, pedidos ++ [p]), r.2)

/-- A Storage that writes down what it is asked. -/
def grabar (srv : Servidor σ) : Servidor (σ × List Pedido) where
  readBlock := fun s nombre n => anotar s.2 (.readBlock nombre n) (srv.readBlock s.1 nombre n)
  writeBlock := fun s file tag n b =>
    anotar s.2 (.writeBlock file tag n b) (srv.writeBlock s.1 file tag n b)
  create := fun s nombre => anotar s.2 (.create nombre) (srv.create s.1 nombre)
  truncate := fun s nombre n => anotar s.2 (.truncate nombre n) (srv.truncate s.1 nombre n)
  tag := fun s origen destino =>
    anotar s.2 (.tag origen destino) (srv.tag s.1 origen destino)
  commit := fun s nombre => anotar s.2 (.commit nombre) (srv.commit s.1 nombre)
  flush := fun s file tag => anotar s.2 (.flush file tag) (srv.flush s.1 file tag)
  delete := fun s file tag => anotar s.2 (.delete file tag) (srv.delete s.1 file tag)

/-- Where Storage looks: a name that comes whole is cut there. -/
def destinos : Pedido → List (Option (String × String))
  | .readBlock nombre _ | .create nombre | .truncate nombre _ | .commit nombre =>
    [WorkerInstructions.separarFileTag nombre]
  | .tag origen destino =>
    [WorkerInstructions.separarFileTag origen, WorkerInstructions.separarFileTag destino]
  | .writeBlock file tag _ _ | .flush file tag | .delete file tag => [some (file, tag)]

/-- A process with a Storage that has written down nothing yet. -/
def conRegistro (e : Proceso σ) : Proceso (σ × List Pedido) :=
  ⟨⟨e.worker.memoria, (e.worker.storage, [])⟩, e.frameCount⟩

/-- The requests of an instruction, in their order. -/
def pedidosDe (ram : Ram) (reloj : Reloj) (srv : Servidor σ) (e : Proceso σ)
    (inst : Instruccion) : List Pedido :=
  (ejecutarInstruccion ram reloj (grabar srv) (conRegistro e) inst).worker.storage.2

/-- The arguments that name a File:Tag. -/
def argumentos (inst : Instruccion) : List String :=
  if inst.comando = "TAG" then [inst.arg1, inst.arg2] else [inst.arg1]

/-- The names of a frame are among some. -/
def Fiel (K : String × String → Prop) (f : Marco) : Prop :=
  ∀ file tag, f.file = some file → f.tag = some tag → K (file, tag)

def Nombres (K : String × String → Prop) (m : Memoria) : Prop :=
  ∀ (i : ℕ) f, m.frames[i]? = some f → Fiel K f

end Pedidos

section Invariante

variable {σ : Type*} {srv : Servidor σ} {w : Worker σ}
  {P K : String × String → Prop} {I : σ → Prop} {m m' : Memoria}

/-- A property of Storage that page reads of some File:Tags keep, and page writes of
some more. -/
structure Respeta (srv : Servidor σ) (P K : String × String → Prop) (I : σ → Prop) : Prop where
  lectura : ∀ st f t p, P (f, t) → I st → I (srv.readBlock st (f ++ ":" ++ t) p).1
  escritura : ∀ st f t p b, K (f, t) → I st → I (srv.writeBlock st f t p b).1
  incluye : ∀ k, P k → K k

structure Bien (K : String × String → Prop) (I : σ → Prop) (w : Worker σ) : Prop where
  nombres : Nombres K w.memoria
  storage : I w.storage

theorem Nombres.modificarMarco (h : Nombres K m) (i : ℕ) {g : Marco → Marco}
    (hg : ∀ f, Fiel K f → Fiel K (g f)) : Nombres K (modificarMarco m i g) := by
  intro j f hf
  rw [frames_modificarMarco] at hf
  split_ifs at hf
  · obtain ⟨f₀, hf₀, rfl⟩ := Option.map_eq_some_iff.mp hf
    exact hg f₀ (h i f₀ hf₀)
  · exact h j f hf

theorem Nombres.tocar (h : Nombres K m) (reloj : Reloj) (i : ℕ) :
    Nombres K (tocar reloj m i) :=
  Nombres.modificarMarco h i (g := usado (reloj.ms m.lecturasReloj)) fun _ hf => hf

theorem Nombres.soloUso (h : Nombres K m) (hs : SoloUso m m') : Nombres K m' := by
  intro i f hf
  have hmarcos := hs.marcos i
  rw [hf] at hmarcos
  obtain ⟨f₀, hf₀, heq⟩ := Option.map_eq_some_iff.mp hmarcos.symm
  have hfile : (sinUso f₀).file = (sinUso f).file := congrArg Marco.file heq
  have htag : (sinUso f₀).tag = (sinUso f).tag := congrArg Marco.tag heq
  intro a b ha hb
  exact h i f₀ hf₀ a b (hfile.trans ha) (htag.trans hb)

theorem Bien.volcarSi (hI : Respeta srv P K I) (h : Bien K I w) (ram : Ram) (p : Marco → Bool)
    (i : ℕ) : Bien K I (volcarSi ram srv p w i).1 := by
  unfold WorkerMemory.volcarSi
  split
  · exact h
  · next f hf =>
    split_ifs
    · unfold volcarMarco
      split
      · next file tag hfile htag =>
        unfold escribirPaginaStorage
        have hescritura := hI.escritura w.storage file tag f.pagina
          (slice w.memoria.direccionBase f.base ram.pageSize) (h.nombres i f hf _ _ hfile htag)
          h.storage
        cases hres : srv.writeBlock w.storage file tag f.pagina
            (slice w.memoria.direccionBase f.base ram.pageSize) with
        | mk st ok =>
          rw [hres] at hescritura
          cases ok with
          | false => exact ⟨h.nombres, hescritura⟩
          | true => exact ⟨h.nombres.modificarMarco i fun f hf => hf, hescritura⟩
      · exact h
    · exact h

theorem Bien.flushFiletag (hI : Respeta srv P K I) (h : Bien K I w) (ram : Ram)
    (file tag : String) : Bien K I (flushFiletag ram srv w file tag).1 :=
  untilFalse_invariant (I := Bien K I) (fun _ i _ hw => hw.volcarSi hI ram _ i) h

theorem Bien.elegirMarco (hI : Respeta srv P K I) (h : Bien K I w) (ram : Ram) :
    Bien K I (elegirMarco ram srv w).1 := by
  unfold WorkerMemory.elegirMarco
  split
  · exact h
  · have hsolo := (elegirAlgoritmo_soloUso ram w.memoria).1
    cases helegir : elegirAlgoritmo ram w.memoria with
    | mk m victima =>
      rw [helegir] at hsolo
      have hm : Bien K I { w with memoria := m } := ⟨h.nombres.soloUso hsolo, h.storage⟩
      cases victima with
      | none => exact hm
      | some v =>
        have hflush := hm.volcarSi hI ram (fun f => !f.libre && f.dirty) v
        simp only
        unfold desalojar flushFrame
        cases hres : WorkerMemory.volcarSi ram srv (fun f => !f.libre && f.dirty)
            { w with memoria := m } v with
        | mk w₁ ok =>
          rw [hres] at hflush
          cases ok with
          | false => exact hflush
          | true =>
            refine ⟨hflush.nombres.modificarMarco v fun f _ => ?_, hflush.storage⟩
            intro a b ha
            simp at ha

theorem Bien.cargarPagina (hI : Respeta srv P K I) (h : Bien K I w) (ram : Ram) (reloj : Reloj)
    (i : ℕ) {file tag : String} (hk : P (file, tag)) (p : ℕ) :
    Bien K I (cargarPagina ram reloj srv w i file tag p).1 := by
  have hlectura := hI.lectura w.storage file tag p hk h.storage
  unfold WorkerMemory.cargarPagina lecturaPaginaStorage
  cases hres : srv.readBlock w.storage (file ++ ":" ++ tag) p with
  | mk st r =>
    rw [hres] at hlectura
    cases r with
    | none => exact ⟨h.nombres, hlectura⟩
    | some b =>
      cases hlargo : decide (ram.pageSize ≤ b.length) with
      | false =>
        simp only [hlargo]
        exact ⟨h.nombres, hlectura⟩
      | true =>
        simp only [hlargo]
        refine ⟨Nombres.modificarMarco (m := { w.memoria with direccionBase := _ }) h.nombres i
          fun f _ => ?_, hlectura⟩
        intro a b ha hb
        obtain rfl := Option.some.inj ha
        obtain rfl := Option.some.inj hb
        exact hI.incluye _ hk

theorem Bien.traerPagina (hI : Respeta srv P K I) (h : Bien K I w) (ram : Ram) (reloj : Reloj)
    {file tag : String} (hk : P (file, tag)) (p : ℕ) :
    Bien K I (traerPagina ram reloj srv w file tag p).1 := by
  have helegido := h.elegirMarco hI ram
  unfold WorkerMemory.traerPagina
  split
  · exact ⟨h.nombres.tocar reloj _, h.storage⟩
  · split
    · next heq =>
      rw [heq] at helegido
      exact helegido
    · next heq =>
      rw [heq] at helegido
      exact helegido.cargarPagina hI ram reloj _ hk p

theorem Bien.accederMarco (h : Bien K I w) (ram : Ram) (reloj : Reloj) (a : Acceso) (i : ℕ)
    (salida : Bytes) (desplaz n : ℕ) :
    Bien K I (accederMarco ram reloj a w i salida desplaz n).1 := by
  unfold WorkerMemory.accederMarco
  split_ifs
  · refine ⟨Nombres.tocar ?_ reloj i, h.storage⟩
    exact Nombres.modificarMarco (m := { w.memoria with direccionBase := _ }) h.nombres i
      fun _ hf => hf
  · exact ⟨h.nombres.tocar reloj i, h.storage⟩

theorem Bien.accederDesde (hI : Respeta srv P K I) (h : Bien K I w) (ram : Ram) (reloj : Reloj)
    {a : Acceso} (hk : P (a.file, a.tag)) (rondas : ℕ) (salida : Bytes) (desplaz n : ℕ) :
    Bien K I (accederDesde ram reloj srv a rondas w salida desplaz n).1 := by
  induction rondas generalizing w salida desplaz n with
  | zero => exact h
  | succ rondas ih =>
    have htraer := h.traerPagina hI ram reloj hk (nroPagina ram (a.base + desplaz))
    unfold WorkerMemory.accederDesde
    split_ifs
    · exact h
    · cases hres : WorkerMemory.traerPagina ram reloj srv w a.file a.tag
          (nroPagina ram (a.base + desplaz)) with
      | mk w₁ marco =>
        rw [hres] at htraer
        cases marco with
        | none => exact htraer
        | some i =>
          exact ih (htraer.accederMarco ram reloj a i salida desplaz _) _ _ _

end Invariante

section Instrucciones

variable {σ : Type*} {srv : Servidor σ} {e : Proceso σ}
  {inst : Instruccion} {A : String → Prop} {P K : String × String → Prop} {I : σ → Prop}

/-- A property that every request keeps whose names come from some arguments. -/
structure RespetaArgumentos (srv : Servidor σ) (A : String → Prop)
    (P K : String × String → Prop) (I : σ → Prop) : Prop extends Respeta srv P K I where
  separa : ∀ a k, A a → WorkerInstructions.separarFileTag a = some k → P k
  create : ∀ st a, A a → I st → I (srv.create st a).1
  truncate : ∀ st a n, A a → I st → I (srv.truncate st a n).1
  tag : ∀ st a b, A a → A b → I st → I (srv.tag st a b).1
  commit : ∀ st a, A a → I st → I (srv.commit st a).1
  flush : ∀ st f t, P (f, t) → I st → I (srv.flush st f t).1
  delete : ∀ st f t, P (f, t) → I st → I (srv.delete st f t).1

theorem fiel_liberado (K : String × String → Prop) (f : Marco) : Fiel K (liberado f) := by
  intro a b ha
  simp [liberado] at ha

theorem Bien.liberarMarco {w : Worker σ} (h : Bien K I w) (i : ℕ) :
    Bien K I (liberarMarco w i) :=
  ⟨h.nombres.modificarMarco i fun f _ => fiel_liberado K f, h.storage⟩

theorem Bien.ejecutarCreate (hI : RespetaArgumentos srv A P K I) (h : Bien K I e.worker)
    (ha : A inst.arg1) : Bien K I (ejecutarCreate srv e inst).1.worker := by
  unfold WorkerInstructions.ejecutarCreate
  split_ifs
  · exact h
  · exact ⟨h.nombres, hI.create _ _ ha h.storage⟩

theorem Bien.ejecutarTruncate (hI : RespetaArgumentos srv A P K I) (h : Bien K I e.worker)
    (ram : Ram) (ha : A inst.arg1) : Bien K I (ejecutarTruncate ram srv e inst).1.worker := by
  have hpedido := hI.truncate e.worker.storage inst.arg1 (ConfigText.atoi inst.arg2) ha h.storage
  unfold WorkerInstructions.ejecutarTruncate conStorage
  by_cases hvacia : inst.arg1 = "" ∨ inst.arg2 = ""
  · rw [if_pos hvacia]
    exact h
  · rw [if_neg hvacia]
    simp only
    split_ifs
    · exact h
    cases hres : srv.truncate e.worker.storage inst.arg1 (ConfigText.atoi inst.arg2) with
    | mk st ok =>
      rw [hres] at hpedido
      cases ok with
      | false => exact ⟨h.nombres, hpedido⟩
      | true =>
        cases WorkerInstructions.separarFileTag inst.arg1 with
        | none => exact ⟨h.nombres, hpedido⟩
        | some k =>
          refine List.foldlRecOn (motive := fun w => Bien K I w) _ _ ⟨h.nombres, hpedido⟩ ?_
          intro w hw i _
          unfold liberarConFlush
          split_ifs
          · exact (hw.volcarSi hI.toRespeta ram _ i).liberarMarco i
          · exact hw

theorem Bien.acceder (hI : RespetaArgumentos srv A P K I) (h : Bien K I e.worker) (ram : Ram)
    (reloj : Reloj) {a : String} (ha : A a) {file tag : String}
    (hsep : WorkerInstructions.separarFileTag a = some (file, tag)) (base : ℕ) (escribir : Bool)
    (entrada salida : Bytes) (n : ℕ) :
    Bien K I (accederMemoria ram reloj srv e.worker ⟨file, tag, base, escribir, entrada⟩ n
      salida).1 :=
  h.accederDesde hI.toRespeta ram reloj (hI.separa a _ ha hsep) n salida 0 n

theorem Bien.ejecutarWrite (hI : RespetaArgumentos srv A P K I) (h : Bien K I e.worker)
    (ram : Ram) (reloj : Reloj) (ha : A inst.arg1) :
    Bien K I (ejecutarWrite ram reloj srv e inst).1.worker := by
  unfold WorkerInstructions.ejecutarWrite
  split
  · next file tag base hsep _ =>
    split_ifs
    · exact h
    · exact h.acceder hI ram reloj ha hsep base true _ _ _
  · exact h

theorem Bien.ejecutarRead (hI : RespetaArgumentos srv A P K I) (h : Bien K I e.worker)
    (ram : Ram) (reloj : Reloj) (ha : A inst.arg1) :
    Bien K I (ejecutarRead ram reloj srv e inst).1.worker := by
  unfold WorkerInstructions.ejecutarRead
  split
  · next file tag base tamanio hsep _ _ =>
    exact h.acceder hI ram reloj ha hsep base false _ _ _
  · exact h

theorem Bien.ejecutarTag (hI : RespetaArgumentos srv A P K I) (h : Bien K I e.worker)
    (ha : A inst.arg1) (ha' : A inst.arg2) : Bien K I (ejecutarTag srv e inst).1.worker := by
  unfold WorkerInstructions.ejecutarTag
  split_ifs
  · exact h
  · exact ⟨h.nombres, hI.tag _ _ _ ha ha' h.storage⟩

theorem Bien.ejecutarCommit (hI : RespetaArgumentos srv A P K I) (h : Bien K I e.worker)
    (ram : Ram) (ha : A inst.arg1) : Bien K I (ejecutarCommit ram srv e inst).1.worker := by
  unfold WorkerInstructions.ejecutarCommit
  split
  · exact h
  · next file tag _ =>
    have hflush := h.flushFiletag hI.toRespeta ram file tag
    cases hres : WorkerMemory.flushFiletag ram srv e.worker file tag with
    | mk w ok =>
      rw [hres] at hflush
      cases ok with
      | false => exact hflush
      | true => exact ⟨hflush.nombres, hI.commit _ _ ha hflush.storage⟩

theorem Bien.ejecutarFlush (hI : RespetaArgumentos srv A P K I) (h : Bien K I e.worker)
    (ram : Ram) (ha : A inst.arg1) : Bien K I (ejecutarFlush ram srv e inst).1.worker := by
  unfold WorkerInstructions.ejecutarFlush
  split
  · exact h
  · next file tag hsep =>
    have hflush := h.flushFiletag hI.toRespeta ram file tag
    cases hres : WorkerMemory.flushFiletag ram srv e.worker file tag with
    | mk w ok =>
      rw [hres] at hflush
      cases ok with
      | false => exact hflush
      | true => exact ⟨hflush.nombres, hI.flush _ _ _ (hI.separa _ _ ha hsep) hflush.storage⟩

theorem Bien.ejecutarDelete (hI : RespetaArgumentos srv A P K I) (h : Bien K I e.worker)
    (ram : Ram) (ha : A inst.arg1) : Bien K I (ejecutarDelete ram srv e inst).1.worker := by
  unfold WorkerInstructions.ejecutarDelete
  split
  · exact h
  · next file tag hsep =>
    have hflush := h.flushFiletag hI.toRespeta ram file tag
    cases hres : WorkerMemory.flushFiletag ram srv e.worker file tag with
    | mk w ok =>
      rw [hres] at hflush
      cases ok with
      | false => exact hflush
      | true =>
        have hlibres : Bien K I ((List.range e.frameCount).foldl (liberarSinFlush file tag) w) := by
          refine List.foldlRecOn (motive := fun w => Bien K I w) _ _ hflush ?_
          intro w hw i _
          unfold liberarSinFlush
          split_ifs
          · exact hw.liberarMarco i
          · exact hw
        exact ⟨hlibres.nombres, hI.delete _ _ _ (hI.separa _ _ ha hsep) hlibres.storage⟩

/-- An instruction asks only for what its arguments name. -/
theorem Bien.ejecutarInstruccion (hI : RespetaArgumentos srv A P K I) (h : Bien K I e.worker)
    (ram : Ram) (reloj : Reloj) (ha : ∀ a ∈ argumentos inst, A a) :
    Bien K I (ejecutarInstruccion ram reloj srv e inst).worker := by
  have ha₁ : A inst.arg1 := by
    refine ha _ ?_
    unfold argumentos
    split_ifs <;> exact List.mem_cons_self ..
  unfold WorkerInstructions.ejecutarInstruccion
  split_ifs with _ _ _ _ htag
  · exact h.ejecutarCreate hI ha₁
  · exact h.ejecutarTruncate hI ram ha₁
  · exact h.ejecutarWrite hI ram reloj ha₁
  · exact h.ejecutarRead hI ram reloj ha₁
  · refine h.ejecutarTag hI ha₁ (ha _ ?_)
    unfold argumentos
    rw [if_pos htag]
    simp
  · exact h.ejecutarCommit hI ram ha₁
  · exact h.ejecutarFlush hI ram ha₁
  · exact h.ejecutarDelete hI ram ha₁
  · exact h

end Instrucciones

section Registro

variable {σ : Type*}

/-- The File:Tags that the arguments of an instruction name. -/
def Nombrado (inst : Instruccion) (k : String × String) : Prop :=
  ∃ a ∈ argumentos inst, WorkerInstructions.separarFileTag a = some k

/-- The names of a frame. -/
def EnMarco (e : Proceso σ) (k : String × String) : Prop :=
  ∃ f ∈ e.worker.memoria.frames, f.file = some k.1 ∧ f.tag = some k.2

/-- Storage looks where the Worker does: under the names of an argument, or, for a page
that is written back, under those of its frame. -/
def BienDirigido (e : Proceso σ) (inst : Instruccion) (p : Pedido) : Prop :=
  (∀ d ∈ destinos p, ∃ a ∈ argumentos inst, d = WorkerInstructions.separarFileTag a) ∨
    ∃ file tag n b, p = .writeBlock file tag n b ∧ EnMarco e (file, tag)

theorem separarFileTag_rejunto {a file tag : String}
    (h : WorkerInstructions.separarFileTag a = some (file, tag)) :
    WorkerInstructions.separarFileTag (file ++ ":" ++ tag) = some (file, tag) := by
  refine WorkerInstructions.separarFileTag_append ?_ tag
  unfold WorkerInstructions.separarFileTag at h
  split at h
  · simp at h
  · obtain ⟨rfl, _⟩ := Prod.mk.inj (Option.some.inj h)
    rw [String.toList_ofList]
    intro hmem
    simpa using List.mem_takeWhile_imp hmem

/-- One more request that is well directed. -/
theorem forall_anotar {α : Type*} {Q : Pedido → Prop} {pedidos : List Pedido} {p : Pedido}
    {r : σ × α} (hp : Q p) (h : ∀ q ∈ pedidos, Q q) : ∀ q ∈ (anotar pedidos p r).1.2, Q q := by
  intro q hq
  rcases List.mem_append.mp hq with hq | hq
  · exact h q hq
  · rw [List.mem_singleton.mp hq]
    exact hp

theorem respeta_grabar (srv : Servidor σ) (e : Proceso σ) (inst : Instruccion) :
    RespetaArgumentos (grabar srv) (· ∈ argumentos inst) (Nombrado inst)
      (fun k => Nombrado inst k ∨ EnMarco e k) fun s => ∀ p ∈ s.2, BienDirigido e inst p where
  lectura := by
    intro st f t p hk h
    obtain ⟨a, ha, hsep⟩ := hk
    refine forall_anotar (Or.inl fun d hd => ⟨a, ha, ?_⟩) h
    rw [List.mem_singleton.mp hd, separarFileTag_rejunto hsep, hsep]
  escritura := by
    intro st f t p b hk h
    refine forall_anotar ?_ h
    rcases hk with ⟨a, ha, hsep⟩ | hmarco
    · refine Or.inl fun d hd => ⟨a, ha, ?_⟩
      rw [List.mem_singleton.mp hd, hsep]
    · exact Or.inr ⟨f, t, p, b, rfl, hmarco⟩
  incluye := fun k hk => Or.inl hk
  separa := fun a k ha hsep => ⟨a, ha, hsep⟩
  create := fun st a ha h =>
    forall_anotar (Or.inl fun d hd => ⟨a, ha, List.mem_singleton.mp hd⟩) h
  truncate := fun st a n ha h =>
    forall_anotar (Or.inl fun d hd => ⟨a, ha, List.mem_singleton.mp hd⟩) h
  tag := by
    intro st a b ha hb h
    refine forall_anotar (Or.inl fun d hd => ?_) h
    rcases List.mem_cons.mp hd with hd | hd
    · exact ⟨a, ha, hd⟩
    · exact ⟨b, hb, List.mem_singleton.mp hd⟩
  commit := fun st a ha h =>
    forall_anotar (Or.inl fun d hd => ⟨a, ha, List.mem_singleton.mp hd⟩) h
  flush := by
    intro st f t hk h
    obtain ⟨a, ha, hsep⟩ := hk
    refine forall_anotar (Or.inl fun d hd => ⟨a, ha, ?_⟩) h
    rw [List.mem_singleton.mp hd, hsep]
  delete := by
    intro st f t hk h
    obtain ⟨a, ha, hsep⟩ := hk
    refine forall_anotar (Or.inl fun d hd => ⟨a, ha, ?_⟩) h
    rw [List.mem_singleton.mp hd, hsep]

/-- All that an instruction asks is well directed, and the pages it leaves in memory have
the names of its arguments or those of pages that were there. -/
theorem bienDirigido_pedidosDe (ram : Ram) (reloj : Reloj) (srv : Servidor σ) (e : Proceso σ)
    (inst : Instruccion) :
    (∀ p ∈ pedidosDe ram reloj srv e inst, BienDirigido e inst p) ∧
      Nombres (fun k => Nombrado inst k ∨ EnMarco e k)
        (ejecutarInstruccion ram reloj (grabar srv) (conRegistro e) inst).worker.memoria := by
  have hinicio : Bien (fun k => Nombrado inst k ∨ EnMarco e k)
      (fun s : σ × List Pedido => ∀ p ∈ s.2, BienDirigido e inst p) (conRegistro e).worker := by
    refine ⟨fun i f hf file tag hfile htag => Or.inr ?_, fun p hp => absurd hp List.not_mem_nil⟩
    exact ⟨f, List.mem_of_getElem? hf, hfile, htag⟩
  have hfin := hinicio.ejecutarInstruccion (respeta_grabar srv e inst) ram reloj
    (fun a ha => ha)
  exact ⟨hfin.storage, hfin.nombres⟩

end Registro

section Resultado

/-- What the Worker and Storage make of one argument. -/
structure MismoFileTag (s : Bytes) : Prop where
  separadores : separarFileTag s = (splitFileTag s).map mitades
  rejunto : ∀ file tag, separarFileTag s = some (file, tag) →
    (splitFileTag (unir file tag)).map mitades = some (file, tag)
  clave : WorkerInstructions.separarFileTag (texto s) =
    (separarFileTag s).map fun p => (texto p.1, texto p.2)
  mensajes : ∀ file tag o, separarFileTag s = some (file, tag) → DelArgumento s file tag o →
    Emitida o → ∃ leer x, lectorDe (mensaje o).1 = some leer ∧ leer (mensaje o).2 = .orden o ∧
      solicitudDe o = some x ∧ fileTagsDe x = [(texto file, texto tag)]

theorem mismoFileTag_argumento (s : Bytes) : MismoFileTag s where
  separadores := separarFileTag_eq s
  rejunto := by
    intro file tag h
    rw [← separarFileTag_eq, separarFileTag_unir (separarFileTag_eq_some_iff.mp h).1]
  clave := separarFileTag_texto s
  mensajes := by
    intro file tag o h ho hemitida
    obtain ⟨leer, hlector, hleer⟩ := lectorDe_mensaje hemitida
    obtain ⟨x, hx, hfileTags⟩ := solicitudDe_argumento h ho
    exact ⟨leer, x, hlector, hleer, hx, hfileTags⟩

/-- For every argument both sides have the same File:Tag, and an instruction with that
argument asks Storage for no other, but where a page of another goes back under the names
its frame has; nor does it leave in memory pages of another that were not there. -/
theorem mismoFileTag (s : Bytes) : MismoFileTag s ∧
    ∀ (σ : Type) (ram : Ram) (reloj : Reloj) (srv : Servidor σ) (e : Proceso σ)
      (inst : Instruccion), inst.arg1 = texto s → inst.comando ≠ "TAG" →
      (∀ p ∈ pedidosDe ram reloj srv e inst,
        (∀ d ∈ destinos p, d = (splitFileTag s).map fun q => (texto q.file, texto q.tag)) ∨
          ∃ file tag n b, p = .writeBlock file tag n b ∧ EnMarco e (file, tag)) ∧
      Nombres (fun k => (splitFileTag s).map (fun q => (texto q.file, texto q.tag)) = some k ∨
          EnMarco e k)
        (ejecutarInstruccion ram reloj (grabar srv) (conRegistro e) inst).worker.memoria := by
  refine ⟨mismoFileTag_argumento s, fun σ ram reloj srv e inst harg hcomando => ?_⟩
  have hargumentos : argumentos inst = [texto s] := by
    unfold argumentos
    rw [if_neg hcomando, harg]
  have hclave : WorkerInstructions.separarFileTag (texto s) =
      (splitFileTag s).map fun q => (texto q.file, texto q.tag) := by
    rw [separarFileTag_texto, separarFileTag_eq, Option.map_map]
    rfl
  obtain ⟨hpedidos, hnombres⟩ := bienDirigido_pedidosDe ram reloj srv e inst
  constructor
  · intro p hp
    refine (hpedidos p hp).imp_left fun hdestinos d hd => ?_
    obtain ⟨a, ha, heq⟩ := hdestinos d hd
    rw [hargumentos, List.mem_singleton] at ha
    rw [heq, ha, hclave]
  · intro i f hf file tag hfile htag
    refine (hnombres i f hf file tag hfile htag).imp_left fun hnombrado => ?_
    obtain ⟨a, ha, hsep⟩ := hnombrado
    rw [hargumentos, List.mem_singleton] at ha
    rw [← hclave, ← ha]
    exact hsep

/-- The first state of a Worker with two frames. -/
def procesoChico : Proceso (ℕ → Bytes) := procesoInicial ramChica fun _ => []

/-- The argument a::b, whose Tag is ":b". -/
theorem mismoFileTag_dosPuntos :
    MismoFileTag [97, 58, 58, 98] ∧
      ∀ p ∈ pedidosDe ramChica relojParado servidorChico procesoChico
        ⟨"READ", texto [97, 58, 58, 98], "0", "1"⟩,
        (∀ d ∈ destinos p, d = some ("a", ":b")) ∨
          ∃ file tag n b, p = .writeBlock file tag n b ∧ EnMarco procesoChico (file, tag) := by
  obtain ⟨hmismo, hpedidos⟩ := mismoFileTag [97, 58, 58, 98]
  exact ⟨hmismo, (hpedidos _ ramChica relojParado servidorChico procesoChico
    ⟨"READ", texto [97, 58, 58, 98], "0", "1"⟩ rfl (by decide)).1⟩

end Resultado

end MasterOfFiles.NameResolution
