import MasterOfFiles.EndReports

/-!
A Query taken away and resumed. ciclo_instruccion returns on an eviction, but the loop
that called it reads the next line all the same, so the run goes on to the end of the
file. It leaves nothing to be resumed, which is harmless only when the instruction that
noticed the eviction was the last one.
-/
namespace MasterOfFiles.PreemptedRuns

open ByteBuffers QueryText ReadReports TraceMarks QueryRuns EndReports

def esDesalojada : Suceso → Prop
  | .desalojada _ _ => True
  | _ => False

/-- The instructions executed, with the counter each was fetched at. -/
def ejecutadas (traza : List Suceso) : List (ℕ × Bytes) :=
  traza.filterMap fun
    | .ejecuta pc texto => some (pc, texto)
    | _ => none

section Bloques

variable {qid : ℤ} {desde : Option ℕ} {x : ℕ × Bytes} {b : List Suceso}

theorem esLectura_of_mem_propios {propios : List Suceso} {y : Suceso}
    (hend : esEnd x.2 → propios = [.finQuery qid])
    (hotro : ¬esEnd x.2 → ∀ y ∈ propios, esLectura y) (hy : y ∈ propios) :
    esLectura y ∨ y = .finQuery qid := by
  by_cases hx : esEnd x.2
  · rw [hend hx] at hy
    exact Or.inr (List.mem_singleton.mp hy)
  · exact Or.inl (hotro hx y hy)

theorem propio_casos {y : Suceso} (h : esLectura y ∨ y = .finQuery qid) :
    ¬esDesalojada y ∧ ejecutadas [y] = [] := by
  rcases h with h | rfl
  · cases y with
    | lectura l => exact ⟨id, rfl⟩
    | ejecuta pc texto => exact absurd h Bool.false_ne_true
    | finQuery q => exact absurd h Bool.false_ne_true
    | desalojada q pc => exact absurd h Bool.false_ne_true
  · exact ⟨id, rfl⟩

theorem ejecutadas_eq_nil {l : List Suceso} (h : ∀ y ∈ l, ejecutadas [y] = []) :
    ejecutadas l = [] := by
  induction l with
  | nil => rfl
  | cons y l ih =>
    obtain ⟨hy, hl⟩ := List.forall_mem_cons.mp h
    have hsplit : ejecutadas ([y] ++ l) = ejecutadas [y] ++ ejecutadas l :=
      List.filterMap_append
    rw [← List.singleton_append, hsplit, hy, ih hl]
    rfl

theorem ejecutadas_bloque (h : Bloque qid desde x b) : ejecutadas b = [x] := by
  obtain ⟨propios, rfl, hend, hotro⟩ := h
  have hresto : ejecutadas
      (propios ++ if desalojado desde x.1 then [.desalojada qid (x.1 + 1)] else []) = [] := by
    apply ejecutadas_eq_nil
    intro y hy
    rcases List.mem_append.mp hy with hy | hy
    · exact (propio_casos (esLectura_of_mem_propios hend hotro hy)).2
    · split_ifs at hy
      · obtain rfl := List.mem_singleton.mp hy
        rfl
      · exact absurd hy List.not_mem_nil
  have hcons : ∀ l, ejecutadas (.ejecuta x.1 x.2 :: l) = x :: ejecutadas l := fun _ => rfl
  rw [hcons, hresto]

theorem ejecutadas_flatten {xs : List (ℕ × Bytes)} {bs : List (List Suceso)}
    (h : List.Forall₂ (Bloque qid desde) xs bs) : ejecutadas bs.flatten = xs := by
  induction h with
  | nil => rfl
  | @cons x b xs bs hx _ ih =>
    have hsplit : ejecutadas (b ++ bs.flatten) = ejecutadas b ++ ejecutadas bs.flatten :=
      List.filterMap_append
    rw [List.flatten_cons, hsplit, ejecutadas_bloque hx, ih]
    rfl

/-- From line `k` on every block ends in OP_QUERY_DESALOJADA. -/
theorem isBlock_desalojo {k : ℕ} (h : Bloque qid (some k) x b) :
    IsBlock (fun x => k ≤ x.1) esDesalojada esEjecucion x b := by
  obtain ⟨propios, rfl, hend, hotro⟩ := h
  have hpropios : ∀ y ∈ propios, ¬esDesalojada y := fun y hy =>
    (propio_casos (esLectura_of_mem_propios hend hotro hy)).1
  have hdesalojado : desalojado (some k) x.1 = decide (k ≤ x.1) := rfl
  rw [hdesalojado]
  constructor
  · intro hx
    have hmarca : esDesalojada (.desalojada qid (x.1 + 1)) := trivial
    rw [onceAndLast_cons_of_not_mark id, onceAndLast_append_of_not_mark hpropios,
      decide_eq_true hx, if_pos rfl, onceAndLast_cons_of_mark hmarca]
    exact fun y hy => absurd hy List.not_mem_nil
  · intro hx y hy
    rw [decide_eq_false hx, if_neg Bool.false_ne_true, List.append_nil] at hy
    rcases List.mem_cons.mp hy with rfl | hy
    · exact id
    · exact hpropios y hy
  · exact ⟨_, List.mem_cons_self .., trivial⟩

/-- The counter sent is the number of the line behind an instruction from `k` on. -/
theorem desalojada_bloque {k pc : ℕ} {q : ℤ} (h : Bloque qid (some k) x b)
    (hmem : .desalojada q pc ∈ b) : q = qid ∧ pc = x.1 + 1 ∧ k ≤ x.1 := by
  obtain ⟨propios, rfl, hend, hotro⟩ := h
  rcases List.mem_cons.mp hmem with hmem | hmem
  · simp at hmem
  · rcases List.mem_append.mp hmem with hmem | hmem
    · exact absurd trivial (propio_casos (esLectura_of_mem_propios hend hotro hmem)).1
    · split_ifs at hmem with hdesalojado
      · injection List.mem_singleton.mp hmem with hq hpc
        exact ⟨hq, hpc, of_decide_eq_true hdesalojado⟩
      · exact absurd hmem List.not_mem_nil

theorem exists_of_mem_flatten {xs : List (ℕ × Bytes)} {bs : List (List Suceso)} {y : Suceso}
    (h : List.Forall₂ (Bloque qid desde) xs bs) (hy : y ∈ bs.flatten) :
    ∃ x ∈ xs, ∃ b, Bloque qid desde x b ∧ y ∈ b := by
  induction h with
  | nil => exact absurd hy List.not_mem_nil
  | @cons x b xs bs hx _ ih =>
    rcases List.mem_append.mp hy with hy | hy
    · exact ⟨x, List.mem_cons_self .., b, hx, hy⟩
    · obtain ⟨x', hx', hresto⟩ := ih hy
      exact ⟨x', List.mem_cons_of_mem _ hx', hresto⟩

end Bloques

section Numeros

theorem pairwise_instrucciones (pc : ℕ) (ls : List Bytes) :
    (instrucciones pc ls).Pairwise fun x y => x.1 < y.1 := by
  induction ls generalizing pc with
  | nil => exact .nil
  | cons l ls ih =>
    rw [instrucciones_cons]
    split_ifs with hl
    · exact ih (pc + 1)
    · exact .cons (fun y hy => le_of_mem_instrucciones hy) (ih (pc + 1))

/-- The instructions from `k` on are one, and the last, when `k` is the last of them. -/
theorem onceAndLast_desde_iff {k : ℕ} {xs : List (ℕ × Bytes)}
    (hxs : xs.Pairwise fun x y => x.1 < y.1) (hk : ∃ texto, (k, texto) ∈ xs) :
    OnceAndLast (fun x => k ≤ x.1) (fun _ => True) xs ↔ ∀ x ∈ xs, x.1 ≤ k := by
  obtain ⟨texto, hk⟩ := hk
  constructor
  · rintro ⟨a, m, b, rfl, hm, ha, hb⟩ x hx
    have hmenor : ∀ y ∈ a, y.1 < k := fun y hy => Nat.lt_of_not_le (ha y hy)
    have hmk : m.1 = k := by
      rcases List.mem_append.mp hk with hk | hk
      · exact absurd (hmenor _ hk) (Nat.lt_irrefl k)
      · rcases List.mem_cons.mp hk with rfl | hk
        · rfl
        · exact absurd trivial (hb _ hk).2
    rcases List.mem_append.mp hx with hx | hx
    · exact (hmenor x hx).le
    · rcases List.mem_cons.mp hx with rfl | hx
      · exact hmk.le
      · exact absurd trivial (hb x hx).2
  · intro hle
    obtain ⟨a, b, rfl⟩ := List.append_of_mem hk
    obtain ⟨-, hkb, hak⟩ := List.pairwise_append.mp hxs
    refine ⟨a, (k, texto), b, rfl, le_rfl, fun y hy => ?_, fun y hy => ?_⟩
    · exact Nat.not_le.mpr (hak y hy _ (List.mem_cons_self ..))
    · have hlt := (List.pairwise_cons.mp hkb).1 y hy
      have hley := hle y (List.mem_append_right _ (List.mem_cons_of_mem _ hy))
      exact absurd hlt (Nat.not_lt.mpr hley)

end Numeros

section Reanudacion

variable {σ : Type*} (ej : Ejecutores σ) (qid : ℤ) (contenido : Bytes)

/-- The trace of a run over a file that opens. -/
def traza (desde : Option ℕ) (s : Interprete σ) (pc : ℕ) : List Suceso :=
  ((procesarQuery ej qid false desde s (some contenido) pc).map Prod.snd).getD []

theorem traza_bloques (desde : Option ℕ) (s : Interprete σ) (pc : ℕ) :
    ∃ bs, traza ej qid contenido desde s pc = bs.flatten ∧
      List.Forall₂ (Bloque qid desde) (pendientes contenido pc) bs := by
  obtain ⟨s', bs, hrun, hbs⟩ := procesarQuery_bloques ej qid desde s contenido pc
  refine ⟨bs, ?_, hbs⟩
  unfold traza
  rw [hrun]
  rfl

/-- Whatever a run does, it goes through all the instructions from its counter on. -/
theorem ejecutadas_traza (desde : Option ℕ) (s : Interprete σ) (pc : ℕ) :
    ejecutadas (traza ej qid contenido desde s pc) = pendientes contenido pc := by
  obtain ⟨bs, htraza, hbs⟩ := traza_bloques ej qid contenido desde s pc
  rw [htraza]
  exact ejecutadas_flatten hbs

/-- The run from `pc` that is taken away on line `k` reports it once and stops there, and a
run from the counter it reports, wherever it is made, executes what is left. -/
def SeReanuda (s s₂ : Interprete σ) (pc k : ℕ) : Prop :=
  OnceAndLast esDesalojada esEjecucion (traza ej qid contenido (some k) s pc) ∧
    ∃ pc', .desalojada qid pc' ∈ traza ej qid contenido (some k) s pc ∧
      ejecutadas (traza ej qid contenido (some k) s pc) ++
        ejecutadas (traza ej qid contenido none s₂ pc') = pendientes contenido pc

theorem onceAndLast_traza_iff (s : Interprete σ) {pc k : ℕ}
    (hk : ∃ texto, (k, texto) ∈ pendientes contenido pc) :
    OnceAndLast esDesalojada esEjecucion (traza ej qid contenido (some k) s pc) ↔
      ∀ x ∈ pendientes contenido pc, x.1 ≤ k := by
  obtain ⟨bs, htraza, hbs⟩ := traza_bloques ej qid contenido (some k) s pc
  rw [htraza, onceAndLast_flatten_iff (hbs.imp fun _ _ => isBlock_desalojo)]
  apply onceAndLast_desde_iff _ hk
  exact (pairwise_instrucciones 1 (lineas contenido)).filter _

theorem pendientes_eq_nil {pc k : ℕ} (hpc : pc ≤ k)
    (h : ∀ x ∈ pendientes contenido pc, x.1 ≤ k) : pendientes contenido (k + 1) = [] := by
  apply List.eq_nil_iff_forall_not_mem.mpr
  intro x hx
  obtain ⟨hmem, hlt⟩ := List.mem_filter.mp hx
  have hle : k + 1 ≤ x.1 := of_decide_eq_true hlt
  have hpendiente : x ∈ pendientes contenido pc :=
    List.mem_filter.mpr ⟨hmem, decide_eq_true (by omega)⟩
  have := h x hpendiente
  omega

/-- A preempted Query is resumed without repeating a line exactly when no instruction is
left behind the one that noticed the eviction. -/
theorem seReanuda_iff {s s₂ : Interprete σ} {pc k : ℕ}
    (hk : ∃ texto, (k, texto) ∈ pendientes contenido pc) :
    SeReanuda ej qid contenido s s₂ pc k ↔ ∀ x ∈ pendientes contenido pc, x.1 ≤ k := by
  constructor
  · intro h
    exact (onceAndLast_traza_iff ej qid contenido s hk).mp h.1
  · intro hle
    have hultima := (onceAndLast_traza_iff ej qid contenido s hk).mpr hle
    refine ⟨hultima, ?_⟩
    obtain ⟨a, m, b, hm, hmarca, -⟩ := hultima
    have hmem : m ∈ traza ej qid contenido (some k) s pc := by
      rw [hm]
      exact List.mem_append_right _ (List.mem_cons_self ..)
    cases m with
    | desalojada q pc' =>
      obtain ⟨bs, htraza, hbs⟩ := traza_bloques ej qid contenido (some k) s pc
      obtain ⟨x, hx, b', hb', hmb⟩ := exists_of_mem_flatten hbs (htraza ▸ hmem)
      obtain ⟨rfl, hpc', hkx⟩ := desalojada_bloque hb' hmb
      obtain rfl : pc' = k + 1 := by
        have := hle x hx
        omega
      refine ⟨k + 1, hmem, ?_⟩
      obtain ⟨texto, hk⟩ := hk
      have hpck : pc ≤ k := of_decide_eq_true (List.mem_filter.mp hk).2
      rw [ejecutadas_traza, ejecutadas_traza, pendientes_eq_nil contenido hpck hle,
        List.append_nil]
    | ejecuta pc texto => exact absurd hmarca id
    | lectura l => exact absurd hmarca id
    | finQuery q => exact absurd hmarca id

/-- A Query of one instruction and a blank line. -/
theorem seReanuda_unaLinea :
    SeReanuda sinEfecto 1 (letras "CREATE a:b\n\n") sinPaths sinPaths 0 1 := by
  apply (seReanuda_iff sinEfecto 1 (letras "CREATE a:b\n\n") _).mpr
  · decide
  · exact ⟨letras "CREATE a:b", by decide⟩

/-- The line behind the preemption is executed by both runs. -/
theorem seReanuda_falla :
    ¬SeReanuda sinEfecto 1 (letras "CREATE a:b\nCREATE c:d\n") sinPaths sinPaths 0 1 := by
  have htraza : traza sinEfecto 1 (letras "CREATE a:b\nCREATE c:d\n") (some 1) sinPaths 0 =
      [.ejecuta 1 (letras "CREATE a:b"), .desalojada 1 2, .ejecuta 2 (letras "CREATE c:d"),
        .desalojada 1 3] := rfl
  have hmarca : esDesalojada (.desalojada 1 2) := trivial
  rintro ⟨hultima, -⟩
  rw [htraza, onceAndLast_cons_of_not_mark id, onceAndLast_cons_of_mark hmarca] at hultima
  exact (hultima _ (List.mem_cons_self ..)).2 trivial

end Reanudacion

end MasterOfFiles.PreemptedRuns
