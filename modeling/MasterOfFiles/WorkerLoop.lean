import MasterOfFiles.PreemptedRuns

/-!
The main loop of the Worker with the Queries it runs. desalojado and query_cancelada are
set in this loop, which does not run while a Query does, and are cleared before every
Query. So a Query runs to the end of its file whatever the Master asks for meanwhile, and
the Worker never reports that it has given one back.
-/
namespace MasterOfFiles.WorkerLoop

open ByteBuffers ByteStreams Packets QueryText WorkerMessages ReadReports QueryRuns
open MasterMessages (EventoWorker FinWorker MensajeMaster Ruta EsQueryNueva generarPathQuery
  addPathForQid getPathForQid removePathForQid)

section Bucle

/-- The interpreter, and the two variables the loop shares with it. pc_actual is only
logged. -/
structure Bucle (σ : Type*) where
  interprete : Interprete σ
  desalojado : Bool
  queryCancelada : Bool

/-- What a turn has read, and what the Query it ran has done. -/
abbrev Turno := EventoWorker × List Suceso

variable {σ : Type*} (ej : Ejecutores σ) (archivos : Bytes → Option Bytes) (pathQueries : Bytes)

/-- The call of procesar_query; nothing changes the two variables while it lasts. -/
def correrQuery (s : Bucle σ) (idQuery pcInicial : ℤ) (path : Bytes) : Bucle σ × List Suceso :=
  let desde := if s.desalojado then some 0 else none
  match procesarQuery ej idQuery s.queryCancelada desde s.interprete (archivos path)
      (aSizeT pcInicial) with
  | none => (s, [])
  | some (interprete, sucesos) => ({ s with interprete := interprete }, sucesos)

def conPaths (s : Bucle σ) (paths : MasterMessages.Paths) : Bucle σ :=
  { s with interprete := { s.interprete with paths := paths } }

def atenderEnviarPath (s : Bucle σ) (b : Bytes) : Except FinWorker (Turno × Bucle σ × Bytes) :=
  match recibirPaquete b with
  | none => .error .indefinido
  | some (idQuery :: pcInicial :: nombre :: _, b') =>
    if 4 ≤ idQuery.length ∧ 4 ≤ pcInicial.length ∧ 0 ∈ nombre then
      let id := (enteroDe (idQuery.take 4)).toInt
      let pc := (enteroDe (pcInicial.take 4)).toInt
      let path := generarPathQuery pathQueries (cString nombre)
      let s := conPaths s (addPathForQid s.interprete.paths id path)
      let r := correrQuery ej archivos { s with desalojado := false, queryCancelada := false }
        id pc path
      .ok ((.query id pc (cString nombre), r.2), r.1, b')
    else .error .indefinido
  | some _ => .error .caida

def atenderReanudar (s : Bucle σ) (b : Bytes) : Except FinWorker (Turno × Bucle σ × Bytes) :=
  match recibirEntero b with
  | (none, _) => .error .indefinido
  | (some qid, b') => match recibirEntero b' with
    | (none, _) => .error .indefinido
    | (some pc, b'') => match getPathForQid s.interprete.paths qid.toInt with
      | none => .ok ((.reanudar qid.toInt pc.toInt none, []), s, b'')
      | some path =>
        let r := correrQuery ej archivos { s with desalojado := false, queryCancelada := false }
          qid.toInt pc.toInt path
        .ok ((.reanudar qid.toInt pc.toInt (some path), r.2),
          conPaths r.1 (removePathForQid qid.toInt r.1.interprete.paths), b'')

/-- A turn of the loop. -/
def turno (s : Bucle σ) (b : Bytes) : Except FinWorker (Turno × Bucle σ × Bytes) :=
  match recibirOperacion b with
  | none => .error .indefinido
  | some (op, b') =>
    if op = opEnviarPath then atenderEnviarPath ej archivos pathQueries s b'
    else if op = opQueryDesconectada then
      let s := { s with queryCancelada := true }
      match recibirEntero b' with
      | (none, b'') => .ok ((.incompleto op.toInt, []), s, b'')
      | (some id, b'') => .ok ((.desconexionQuery id.toInt, []), s, b'')
    else if op = opDesalojarQuery then
      let s := { s with desalojado := true }
      match recibirEntero b' with
      | (none, b'') => .ok ((.incompleto op.toInt, []), s, b'')
      | (some id, b'') => .ok ((.desalojo (some id.toInt), []), s, b'')
    else if op = opReanudarQuery then atenderReanudar ej archivos s b'
    else if op = -1 then .error .cierre
    else .ok ((.inesperado op.toInt, []), s, b')

/-- All the Worker does with the bytes the Master has sent before it closed. -/
def escuchar (s : Bucle σ) (b : Bytes) : List Turno × Option FinWorker :=
  listen (turno ej archivos pathQueries) s b

end Bucle

section Enteras

/-- A run over the whole rest of a file: its instructions in their order, each once, and
no report but those of its READs and its ENDs. -/
def CorridaEntera (archivos : Bytes → Option Bytes) (id pc : ℤ) (path : Bytes)
    (sucesos : List Suceso) : Prop :=
  match archivos path with
  | none => sucesos = []
  | some contenido => ∃ bs, sucesos = bs.flatten ∧
      List.Forall₂ (Bloque id none) (pendientes contenido (aSizeT pc)) bs

/-- A turn that starts a Query runs it whole, and the other turns run nothing. -/
def TurnoEntero (archivos : Bytes → Option Bytes) (pathQueries : Bytes) : Turno → Prop
  | (.query id pc nombre, sucesos) =>
    CorridaEntera archivos id pc (generarPathQuery pathQueries nombre) sucesos
  | (.reanudar qid pc (some path), sucesos) => CorridaEntera archivos qid pc path sucesos
  | (_, sucesos) => sucesos = []

variable {σ : Type*} {ej : Ejecutores σ} {archivos : Bytes → Option Bytes} {pathQueries : Bytes}

/-- With both variables cleared a Query is run whole. -/
theorem corridaEntera_correrQuery (s : Bucle σ) (id pc : ℤ) (path : Bytes) :
    CorridaEntera archivos id pc path
      (correrQuery ej archivos { s with desalojado := false, queryCancelada := false }
        id pc path).2 := by
  unfold CorridaEntera correrQuery
  cases harchivo : archivos path with
  | none => rfl
  | some contenido =>
    obtain ⟨s', bs, hrun, hbs⟩ :=
      procesarQuery_bloques ej id none s.interprete contenido (aSizeT pc)
    simp only [Bool.false_eq_true, if_false]
    rw [hrun]
    exact ⟨bs, rfl, hbs⟩

theorem turnoEntero_enviarPath {s s' : Bucle σ} {b b' : Bytes} {x : Turno}
    (h : atenderEnviarPath ej archivos pathQueries s b = .ok (x, s', b')) :
    TurnoEntero archivos pathQueries x := by
  unfold atenderEnviarPath at h
  split at h
  · simp at h
  · split_ifs at h
    obtain ⟨rfl, -, -⟩ : _ = x ∧ _ ∧ _ := by simpa using h
    exact corridaEntera_correrQuery ..
  · simp at h

theorem turnoEntero_reanudar {s s' : Bucle σ} {b b' : Bytes} {x : Turno}
    (h : atenderReanudar ej archivos s b = .ok (x, s', b')) :
    TurnoEntero archivos pathQueries x := by
  unfold atenderReanudar at h
  split at h
  · simp at h
  · split at h
    · simp at h
    · split at h
      · obtain ⟨rfl, -, -⟩ : _ = x ∧ _ ∧ _ := by simpa using h
        rfl
      · obtain ⟨rfl, -, -⟩ : _ = x ∧ _ ∧ _ := by simpa using h
        exact corridaEntera_correrQuery ..

theorem turnoEntero_turno {s s' : Bucle σ} {b b' : Bytes} {x : Turno}
    (h : turno ej archivos pathQueries s b = .ok (x, s', b')) :
    TurnoEntero archivos pathQueries x := by
  unfold turno at h
  split at h
  · simp at h
  · split_ifs at h
    · exact turnoEntero_enviarPath h
    · split at h
      · obtain ⟨rfl, -, -⟩ : _ = x ∧ _ ∧ _ := by simpa using h
        rfl
      · obtain ⟨rfl, -, -⟩ : _ = x ∧ _ ∧ _ := by simpa using h
        rfl
    · split at h
      · obtain ⟨rfl, -, -⟩ : _ = x ∧ _ ∧ _ := by simpa using h
        rfl
      · obtain ⟨rfl, -, -⟩ : _ = x ∧ _ ∧ _ := by simpa using h
        rfl
    · exact turnoEntero_reanudar h
    · obtain ⟨rfl, -, -⟩ : _ = x ∧ _ ∧ _ := by simpa using h
      rfl

/-- Whatever bytes the Worker gets, it runs whole every Query it begins. -/
theorem turnoEntero_escuchar (s : Bucle σ) (b : Bytes) :
    ∀ x ∈ (escuchar ej archivos pathQueries s b).1, TurnoEntero archivos pathQueries x := by
  refine forall_mem_listen (I := fun _ => True) ?_ trivial b
  exact fun _ _ _ _ _ _ h => ⟨turnoEntero_turno h, trivial⟩

/-- The block of an instruction reports no Query given back. -/
theorem not_desalojada_of_bloque {id : ℤ} {x : ℕ × Bytes} {b : List Suceso}
    (h : Bloque id none x b) (qid : ℤ) (pc : ℕ) : .desalojada qid pc ∉ b := by
  obtain ⟨propios, rfl, hend, hotra⟩ := h
  intro hmem
  have hpropios : .desalojada qid pc ∈ propios := by simpa [desalojado] using hmem
  by_cases hfin : esEnd x.2
  · rw [hend hfin] at hpropios
    simp at hpropios
  · exact Bool.false_ne_true (hotra hfin _ hpropios)

theorem not_desalojada_of_entera {id pc : ℤ} {path : Bytes} {sucesos : List Suceso}
    (h : CorridaEntera archivos id pc path sucesos) (qid : ℤ) (pc' : ℕ) :
    .desalojada qid pc' ∉ sucesos := by
  unfold CorridaEntera at h
  split at h
  · rw [h]
    exact List.not_mem_nil
  · obtain ⟨bs, rfl, hbs⟩ := h
    intro hmem
    obtain ⟨x, -, b, hbloque, hmem⟩ := PreemptedRuns.exists_of_mem_flatten hbs hmem
    exact not_desalojada_of_bloque hbloque qid pc' hmem

theorem not_desalojada_of_turno {x : Turno} (h : TurnoEntero archivos pathQueries x) (qid : ℤ)
    (pc : ℕ) : .desalojada qid pc ∉ x.2 := by
  unfold TurnoEntero at h
  split at h
  · exact not_desalojada_of_entera h qid pc
  · exact not_desalojada_of_entera h qid pc
  · rw [h]
    exact List.not_mem_nil

/-- Whatever the Master sends and whenever it does, a Worker goes through every Query it
begins to the end, and never reports that it has given one back. -/
theorem nadaDesalojado_escuchar (ej : Ejecutores σ) (archivos : Bytes → Option Bytes)
    (pathQueries : Bytes) (s : Bucle σ) (b : Bytes) :
    ∀ x ∈ (escuchar ej archivos pathQueries s b).1,
      TurnoEntero archivos pathQueries x ∧ ∀ qid pc, .desalojada qid pc ∉ x.2 := by
  intro x hx
  have hentero := turnoEntero_escuchar s b x hx
  exact ⟨hentero, not_desalojada_of_turno hentero⟩

/-- A request to give a Query back, and the Query behind it. -/
def desalojoYQuery : Bytes :=
  bytesEntero opDesalojarQuery ++ bytesEntero 0 ++
    enviarPaquete opEnviarPath [bytesEntero 0, bytesEntero 0, [113, 0]]

theorem nadaDesalojado_escuchar_dosTurnos :
    let corrida : Turno := (.query 0 0 [113], [.ejecuta 1 (letras "END"), .finQuery 0])
    TurnoEntero (fun _ => some (letras "END")) [] corrida ∧
      ∀ qid pc, .desalojada qid pc ∉ corrida.2 := by
  have hturnos : (escuchar EndReports.sinEfecto (fun _ => some (letras "END")) []
      ⟨EndReports.sinPaths, false, false⟩ desalojoYQuery).1 =
        [(.desalojo (some 0), []),
          (.query 0 0 [113], [.ejecuta 1 (letras "END"), .finQuery 0])] := rfl
  apply nadaDesalojado_escuchar EndReports.sinEfecto (fun _ => some (letras "END")) []
    ⟨EndReports.sinPaths, false, false⟩ desalojoYQuery
  rw [hturnos]
  exact List.mem_cons_of_mem _ (List.mem_cons_self ..)

end Enteras

section Consumo

variable {σ : Type*} {ej : Ejecutores σ} {archivos : Bytes → Option Bytes} {pathQueries : Bytes}
variable {s s' : Bucle σ} {b b' : Bytes} {x : Turno}

theorem length_atenderEnviarPath_le
    (h : atenderEnviarPath ej archivos pathQueries s b = .ok (x, s', b')) :
    b'.length ≤ b.length := by
  unfold atenderEnviarPath at h
  split at h
  · simp at h
  · next hpaquete =>
    split_ifs at h
    obtain ⟨-, -, rfl⟩ : _ ∧ _ ∧ _ = b' := by simpa using h
    exact length_recibirPaquete_le hpaquete
  · simp at h

theorem length_atenderReanudar_le (h : atenderReanudar ej archivos s b = .ok (x, s', b')) :
    b'.length ≤ b.length := by
  unfold atenderReanudar at h
  split at h
  · simp at h
  · next qid b₁ hqid =>
    have h₁ := length_recibirEntero_le hqid
    split at h
    · simp at h
    · next pc b₂ hpc =>
      have h₂ := length_recibirEntero_le hpc
      split at h <;> obtain ⟨-, -, rfl⟩ : _ ∧ _ ∧ _ = b' := by simpa using h
      · omega
      · omega

theorem consumes_turno (ej : Ejecutores σ) (archivos : Bytes → Option Bytes)
    (pathQueries : Bytes) : Consumes (turno ej archivos pathQueries) := by
  intro s b x s' b' h
  unfold turno at h
  cases hop : recibirOperacion b with
  | none => simp [hop] at h
  | some q =>
    obtain ⟨op, b₁⟩ := q
    rcases length_recibirOperacion hop with ⟨rfl, rfl⟩ | hlen
    · simp [hop, opEnviarPath, opQueryDesconectada, opDesalojarQuery, opReanudarQuery] at h
    · simp only [hop] at h
      split_ifs at h
      · have hle := length_atenderEnviarPath_le h
        omega
      · split at h <;> next hrecv =>
          obtain ⟨-, -, rfl⟩ : _ ∧ _ ∧ _ = b' := by simpa using h
          have hle := length_recibirEntero_le hrecv
          omega
      · split at h <;> next hrecv =>
          obtain ⟨-, -, rfl⟩ : _ ∧ _ ∧ _ = b' := by simpa using h
          have hle := length_recibirEntero_le hrecv
          omega
      · have hle := length_atenderReanudar_le h
        omega
      · obtain ⟨-, -, rfl⟩ : _ ∧ _ ∧ _ = b' := by simpa using h
        omega

end Consumo

section Mensajes

variable {σ : Type*} {ej : Ejecutores σ} {archivos : Bytes → Option Bytes} {pathQueries : Bytes}

/-- The numbers the loop knows as opcodes. -/
def conocidos : List Entero :=
  [opEnviarPath, opQueryDesconectada, opDesalojarQuery, opReanudarQuery, -1]

/-- A new Query, or a request to give back one whose number is no opcode. -/
def Inofensivo (m : MensajeMaster) : Prop :=
  EsQueryNueva m ∨ ∃ qid, m = .verificarDesalojo qid ∧ qid ∉ conocidos

/-- What the loop makes of such a message: the size of the packet is taken for the number
of the Query, and its one field for two opcodes. -/
def leidos : MensajeMaster → List EventoWorker
  | .planificar qid pc path => [.query qid.toInt pc.toInt path.bytes]
  | .verificarDesalojo qid => [.desalojo (some 8), .inesperado 4, .inesperado qid.toInt]
  | .solicitarDesalojo => []

theorem turno_inesperado (s : Bucle σ) {op : Entero} (h : op ∉ conocidos) (rest : Bytes) :
    turno ej archivos pathQueries s (bytesEntero op ++ rest) =
      .ok ((.inesperado op.toInt, []), s, rest) := by
  simp only [conocidos, List.mem_cons, List.not_mem_nil, or_false, not_or] at h
  obtain ⟨hpath, hdesconectada, hdesalojar, hreanudar, hmenos⟩ := h
  unfold turno
  rw [recibirOperacion_append]
  simp only [if_neg hpath, if_neg hdesconectada, if_neg hdesalojar, if_neg hreanudar,
    if_neg hmenos]

theorem turno_desalojar (s : Bucle σ) (id : Entero) (rest : Bytes) :
    turno ej archivos pathQueries s
        (bytesEntero opDesalojarQuery ++ (bytesEntero id ++ rest)) =
      .ok ((.desalojo (some id.toInt), []), { s with desalojado := true }, rest) := by
  unfold turno
  rw [recibirOperacion_append]
  simp [recibirEntero_append, opEnviarPath, opQueryDesconectada, opDesalojarQuery]

theorem turno_queryNueva (s : Bucle σ) (qid : Entero) (path : Ruta) (rest : Bytes) :
    ∃ s' sucesos, turno ej archivos pathQueries s
        (MasterMessages.escribir (.planificar qid 0 path) ++ rest) =
      .ok ((.query qid.toInt 0 path.bytes, sucesos), s', rest) := by
  have hcabe := path.cabe
  have hlargo : largoCampos [bytesEntero qid, bytesEntero 0, path.bytes ++ [0]] < 2 ^ 31 := by
    rw [MasterMessages.largoCampos_planificar]
    omega
  have hescribir : MasterMessages.escribir (.planificar qid 0 path) =
      enviarPaquete opEnviarPath [bytesEntero qid, bytesEntero 0, path.bytes ++ [0]] := by
    simp [MasterMessages.escribir, MasterMessages.planificadorFifo]
  unfold turno
  rw [hescribir, recibirOperacion_enviarPaquete opEnviarPath hlargo]
  simp only [if_true]
  unfold atenderEnviarPath
  rw [reads_recibirPaquete hlargo]
  simp only [length_bytesEntero, take_bytesEntero, enteroDe_bytesEntero,
    cString_append_nul path.sin_nul]
  rw [if_pos (by simp)]
  exact ⟨_, _, rfl⟩

/-- Behind such a message the loop is again at the front of the next one. -/
theorem escuchar_inofensivo {m : MensajeMaster} (h : Inofensivo m) (s : Bucle σ)
    (rest : Bytes) : ∃ s' xs, xs.map Prod.fst = leidos m ∧
      listen (turno ej archivos pathQueries) s (MasterMessages.escribir m ++ rest) =
        (xs ++ (listen (turno ej archivos pathQueries) s' rest).1,
          (listen (turno ej archivos pathQueries) s' rest).2) := by
  have hc := consumes_turno ej archivos pathQueries
  rcases h with ⟨qid, path, rfl⟩ | ⟨qid, rfl, hqid⟩
  · obtain ⟨s', sucesos, hturno⟩ : ∃ s' sucesos, turno ej archivos pathQueries s _ = _ :=
      turno_queryNueva s qid path rest
    exact ⟨s', [_], rfl, listen_ok hc hturno⟩
  · have hbytes : MasterMessages.escribir (.verificarDesalojo qid) ++ rest =
        bytesEntero opDesalojarQuery ++ (bytesEntero 8 ++ (bytesEntero 4 ++
          (bytesEntero qid ++ rest))) := by
      have hlargo : largoCampos [bytesEntero qid] = 8 := by simp [largoCampos]
      rw [MasterMessages.escribir, MasterMessages.verificarDesalojo,
        enviarPaquete_eq _ (by omega), cuerpoPaquete, hlargo]
      simp [bytesCampo]
    have hcuatro : (4 : Entero) ∉ conocidos := by decide
    rw [hbytes, listen_ok hc (turno_desalojar s 8 _),
      listen_ok hc (turno_inesperado _ hcuatro _), listen_ok hc (turno_inesperado _ hqid _)]
    exact ⟨{ s with desalojado := true }, [_, _, _], rfl, rfl⟩

/-- Requests to give a Query back do not disturb the stream: the loop takes every new Query
for what it is, in their order. -/
theorem escuchar_mensajes {ms : List MensajeMaster} (h : ∀ m ∈ ms, Inofensivo m)
    (s : Bucle σ) :
    (escuchar ej archivos pathQueries s (ms.flatMap MasterMessages.escribir)).1.map Prod.fst =
        ms.flatMap leidos ∧
      (escuchar ej archivos pathQueries s (ms.flatMap MasterMessages.escribir)).2 =
        some .cierre := by
  have hfin : ∀ s : Bucle σ, turno ej archivos pathQueries s [] = .error .cierre := fun _ => rfl
  exact map_listen_flatMap hfin (fun m hm s rest => escuchar_inofensivo (h m hm) s rest) s

end Mensajes

end MasterOfFiles.WorkerLoop
