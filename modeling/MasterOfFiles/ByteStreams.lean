import Mathlib.Algebra.BigOperators.Group.List.Basic
import MasterOfFiles.ByteBuffers

/-!
Values written one behind the other on a byte stream and read back. Numbers are
little-endian, a reader takes a value off the front of the stream, and a
listening loop takes one message a turn until a turn ends it. A turn may keep a
state. The loop agrees with its writers on a sequence of messages exactly when
each message, in the state it is read in, is one the turn understands.
-/
namespace MasterOfFiles.ByteStreams

open ByteBuffers

section LittleEndian

def leBytes : ℕ → ℕ → Bytes
  | 0, _ => []
  | n + 1, x => UInt8.ofNat x :: leBytes n (x / 256)

def leNat : Bytes → ℕ
  | [] => 0
  | b :: bs => b.toNat + 256 * leNat bs

@[simp] theorem length_leBytes (n x : ℕ) : (leBytes n x).length = n := by
  induction n generalizing x with
  | zero => rfl
  | succ n ih => simp [leBytes, ih]

theorem leNat_leBytes {n x : ℕ} (h : x < 256 ^ n) : leNat (leBytes n x) = x := by
  induction n generalizing x with
  | zero =>
    have hx : x = 0 := by simpa using h
    rw [hx, leBytes, leNat]
  | succ n ih =>
    have hdiv : x / 256 < 256 ^ n := by
      apply Nat.div_lt_of_lt_mul
      rwa [pow_succ, mul_comm] at h
    have hbyte : (UInt8.ofNat x).toNat = x % 256 := UInt8.toNat_ofNat'
    rw [leBytes, leNat, ih hdiv, hbyte]
    omega

theorem leNat_lt (b : Bytes) : leNat b < 256 ^ b.length := by
  induction b with
  | nil => exact Nat.one_pos
  | cons x b ih =>
    have hx := x.toNat_lt
    rw [leNat, List.length_cons, pow_succ]
    omega

theorem leBytes_leNat (b : Bytes) : leBytes b.length (leNat b) = b := by
  induction b with
  | nil => rfl
  | cons x b ih =>
    have hx := x.toNat_lt
    have hdiv : (x.toNat + 256 * leNat b) / 256 = leNat b := by omega
    have hmod : UInt8.ofNat (x.toNat + 256 * leNat b) = x := by
      apply UInt8.toNat_inj.mp
      rw [UInt8.toNat_ofNat']
      omega
    rw [leNat, List.length_cons, leBytes, hdiv, hmod, ih]

/-- A word of `n` bytes as it lies in memory. -/
def wordBytes (n : ℕ) (x : BitVec (8 * n)) : Bytes := leBytes n x.toNat

def wordOf (n : ℕ) (b : Bytes) : BitVec (8 * n) := BitVec.ofNat (8 * n) (leNat b)

@[simp] theorem length_wordBytes (n : ℕ) (x : BitVec (8 * n)) : (wordBytes n x).length = n :=
  length_leBytes n x.toNat

@[simp] theorem wordOf_wordBytes (n : ℕ) (x : BitVec (8 * n)) : wordOf n (wordBytes n x) = x := by
  have hlt : x.toNat < 256 ^ n := by
    have hx := x.isLt
    rwa [Nat.pow_mul] at hx
  rw [wordOf, wordBytes, leNat_leBytes hlt, BitVec.ofNat_toNat, BitVec.setWidth_eq]

theorem wordBytes_wordOf {n : ℕ} {b : Bytes} (h : b.length = n) :
    wordBytes n (wordOf n b) = b := by
  have hlt := leNat_lt b
  rw [h, show 256 ^ n = 2 ^ (8 * n) from by rw [Nat.pow_mul]] at hlt
  rw [wordBytes, wordOf, BitVec.toNat_ofNat, Nat.mod_eq_of_lt hlt]
  exact h ▸ leBytes_leNat b

end LittleEndian

section Readers

variable {α β : Type*}

/-- Takes a value off the front of a stream; `none` when the bytes say no value. -/
abbrev Reader (α : Type*) := Bytes → Option (α × Bytes)

/-- The reader finds the value the bytes were written for, whatever follows them. -/
def Reads (r : Reader α) (b : Bytes) (x : α) : Prop := ∀ rest, r (b ++ rest) = some (x, rest)

def readThen (r : Reader α) (k : α → Reader β) : Reader β := fun b =>
  (r b).bind fun p => k p.1 p.2

def readMany (r : Reader α) : ℕ → Reader (List α)
  | 0 => fun b => some ([], b)
  | n + 1 => readThen r fun x => readThen (readMany r n) fun xs b => some (x :: xs, b)

theorem Reads.readThen {r : Reader α} {k : α → Reader β} {b b' : Bytes} {x : α} {y : β}
    (h : Reads r b x) (h' : Reads (k x) b' y) : Reads (readThen r k) (b ++ b') y := by
  intro rest
  unfold ByteStreams.readThen
  rw [List.append_assoc, h, Option.bind_some]
  exact h' rest

/-- Values that are read back one by one are read back as a sequence. -/
theorem Reads.readMany {r : Reader α} {w : α → Bytes} {xs : List α}
    (h : ∀ x ∈ xs, Reads r (w x) x) : Reads (readMany r xs.length) (xs.flatMap w) xs := by
  induction xs with
  | nil => exact fun _ => rfl
  | cons x xs ih =>
    have htail := ih fun y hy => h y (List.mem_cons_of_mem _ hy)
    rw [List.flatMap_cons, List.length_cons]
    refine (h x (List.mem_cons_self ..)).readThen ?_
    intro rest
    unfold ByteStreams.readThen
    rw [htail, Option.bind_some]

end Readers

section Listening

variable {σ ε φ μ : Type*} (turn : σ → Bytes → Except φ (ε × σ × Bytes))

/-- At most `n` turns; no ending is known when they run out. -/
def listenFor : ℕ → σ → Bytes → List ε × Option φ
  | 0, _, _ => ([], none)
  | n + 1, s, b => match turn s b with
    | .error fin => ([], some fin)
    | .ok (e, s', b') => (e :: (listenFor n s' b').1, (listenFor n s' b').2)

/-- A turn that goes on has taken something off the stream. -/
def Consumes : Prop := ∀ s b e s' b', turn s b = .ok (e, s', b') → b'.length < b.length

/-- The whole loop: the events of its turns and the way it ends. -/
def listen (s : σ) (b : Bytes) : List ε × Option φ := listenFor turn (b.length + 1) s b

variable {turn}

theorem listenFor_eq (hc : Consumes turn) {n m : ℕ} {s : σ} {b : Bytes} (hn : b.length < n)
    (hm : b.length < m) : listenFor turn n s b = listenFor turn m s b := by
  induction n generalizing m s b with
  | zero => omega
  | succ n ih =>
    obtain ⟨m, rfl⟩ := Nat.exists_eq_add_one_of_ne_zero (show m ≠ 0 by omega)
    cases hturn : turn s b with
    | error fin => simp only [listenFor, hturn]
    | ok p =>
      obtain ⟨e, s', b'⟩ := p
      have hless := hc s b e s' b' hturn
      simp only [listenFor, hturn]
      rw [ih (m := m) (by omega) (by omega)]

theorem listen_error {s : σ} {b : Bytes} {fin : φ} (h : turn s b = .error fin) :
    listen turn s b = ([], some fin) := by
  simp only [listen, listenFor, h]

theorem listen_ok (hc : Consumes turn) {s s' : σ} {b b' : Bytes} {e : ε}
    (h : turn s b = .ok (e, s', b')) :
    listen turn s b = (e :: (listen turn s' b').1, (listen turn s' b').2) := by
  have hless := hc s b e s' b' h
  have htail : listenFor turn b.length s' b' = listen turn s' b' :=
    listenFor_eq hc hless (Nat.lt_succ_self _)
  unfold listen
  simp only [listenFor, h, htail]
  rfl

theorem mem_listen_head (hc : Consumes turn) {s s' : σ} {b b' : Bytes} {e : ε}
    (h : turn s b = .ok (e, s', b')) : e ∈ (listen turn s b).1 := by
  rw [listen_ok hc h]
  exact List.mem_cons_self ..

theorem mem_listen_tail (hc : Consumes turn) {s s' : σ} {b b' : Bytes} {e e' : ε}
    (h : turn s b = .ok (e, s', b')) (he : e' ∈ (listen turn s' b').1) :
    e' ∈ (listen turn s b).1 := by
  rw [listen_ok hc h]
  exact List.mem_cons_of_mem _ he

variable (turn) (w : μ → Bytes) (ev : μ → ε) (fin : φ)

/-- The loop recognises exactly the messages written, and ends as it should. -/
def Agrees (s : σ) (ms : List μ) : Prop :=
  listen turn s (ms.flatMap w) = (ms.map ev, some fin)

/-- Every turn takes one message off the stream, and nothing else. -/
def TakesWhole : σ → List μ → Prop
  | _, [] => True
  | s, m :: ms => ∃ s', turn s (w m ++ ms.flatMap w) = .ok (ev m, s', ms.flatMap w) ∧
      TakesWhole s' ms

/-- Every message is understood in the state it is read in. -/
def EachMessage (good : σ → μ → Prop) (next : σ → μ → σ) : σ → List μ → Prop
  | _, [] => True
  | s, m :: ms => good s m ∧ EachMessage good next (next s m) ms

variable {turn w ev fin}

theorem agrees_iff (hc : Consumes turn) {good : σ → μ → Prop} {next : σ → μ → σ}
    (hend : ∀ s, turn s [] = .error fin)
    (hgood : ∀ s m rest, good s m → turn s (w m ++ rest) = .ok (ev m, next s m, rest))
    (hbad : ∀ s m ms, ¬ good s m → ¬ Agrees turn w ev fin s (m :: ms)) (s : σ) (ms : List μ) :
    Agrees turn w ev fin s ms ↔ EachMessage good next s ms := by
  induction ms generalizing s with
  | nil => exact iff_of_true (listen_error (hend s)) trivial
  | cons m ms ih =>
    by_cases hm : good s m
    · have hcons : Agrees turn w ev fin s (m :: ms) ↔ Agrees turn w ev fin (next s m) ms := by
        unfold Agrees
        rw [List.flatMap_cons, listen_ok hc (hgood s m _ hm), List.map_cons, Prod.ext_iff,
          Prod.ext_iff]
        simp only [List.cons.injEq, true_and]
      rw [hcons, ih]
      exact ⟨fun h => ⟨hm, h⟩, fun h => h.2⟩
    · exact iff_of_false (hbad s m ms hm) fun h => hm h.1

theorem takesWhole_of_eachMessage {good : σ → μ → Prop} {next : σ → μ → σ}
    (hgood : ∀ s m rest, good s m → turn s (w m ++ rest) = .ok (ev m, next s m, rest))
    {s : σ} {ms : List μ} (h : EachMessage good next s ms) : TakesWhole turn w ev s ms := by
  induction ms generalizing s with
  | nil => trivial
  | cons m ms ih => exact ⟨next s m, hgood s m _ h.1, ih h.2⟩

/-- What agreement says about the first message, from the turn that reads it. -/
theorem Agrees.head (hc : Consumes turn) {s s' : σ} {m : μ} {ms : List μ} {b b' : Bytes} {e : ε}
    (h : Agrees turn w ev fin s (m :: ms)) (hb : (m :: ms).flatMap w = b)
    (hturn : turn s b = .ok (e, s', b')) :
    e = ev m ∧ (listen turn s' b').1 = ms.map ev := by
  unfold Agrees at h
  rw [hb, listen_ok hc hturn, List.map_cons] at h
  exact List.cons.inj (Prod.mk.inj h).1

/-- What every turn keeps and gives holds of all the events of the loop. -/
theorem forall_mem_listen {I : σ → Prop} {P : ε → Prop}
    (hturn : ∀ s b e s' b', I s → turn s b = .ok (e, s', b') → P e ∧ I s') {s : σ} (hs : I s)
    (b : Bytes) : ∀ e ∈ (listen turn s b).1, P e := by
  have hfor : ∀ n (s : σ) (b : Bytes), I s → ∀ e ∈ (listenFor turn n s b).1, P e := by
    intro n
    induction n with
    | zero => exact fun s b _ e he => absurd he List.not_mem_nil
    | succ n ih =>
      intro s b hs e he
      cases hok : turn s b with
      | error fin => simp [listenFor, hok] at he
      | ok p =>
        obtain ⟨e', s', b'⟩ := p
        obtain ⟨he', hs'⟩ := hturn s b e' s' b' hs hok
        simp only [listenFor, hok, List.mem_cons] at he
        rcases he with rfl | he
        · exact he'
        · exact ih s' b' hs' e he
  exact hfor (b.length + 1) s b hs

/-- Turns that give the same event and leave the same stream, in states that correspond,
or end in the same way. -/
def SameTurn {τ : Type*} (R : σ → τ → Prop) :
    Except φ (ε × σ × Bytes) → Except φ (ε × τ × Bytes) → Prop
  | .error fin, .error fin' => fin = fin'
  | .ok (e, s, b), .ok (e', t, b') => e = e' ∧ b = b' ∧ R s t
  | _, _ => False

/-- Loops whose turns correspond give the same events and end in the same way. -/
theorem listen_eq_of_sameTurn {τ : Type*} {turn' : τ → Bytes → Except φ (ε × τ × Bytes)}
    {R : σ → τ → Prop} (hturn : ∀ s t b, R s t → SameTurn R (turn s b) (turn' t b)) {s : σ} {t : τ}
    (h : R s t) (b : Bytes) : listen turn s b = listen turn' t b := by
  have hfor : ∀ n s t b, R s t → listenFor turn n s b = listenFor turn' n t b := by
    intro n
    induction n with
    | zero => exact fun _ _ _ _ => rfl
    | succ n ih =>
      intro s t b h
      have hsame := hturn s t b h
      cases hs : turn s b <;> cases ht : turn' t b <;> rw [hs, ht] at hsame
      · simp only [listenFor, hs, ht, show _ = _ from hsame]
      · exact absurd hsame id
      · exact absurd hsame id
      · obtain ⟨he, hb, hst⟩ := hsame
        simp only [listenFor, hs, ht, he, hb]
        rw [ih _ _ _ hst]
  exact hfor (b.length + 1) s t b h

/-- The messages the turns take off whole, each with its events, up to a view of them. -/
theorem map_listen_flatMap {γ : Type*} {g : ε → γ} {evs : μ → List γ} {ms : List μ}
    (hend : ∀ s, turn s [] = .error fin)
    (hmsg : ∀ m ∈ ms, ∀ s rest, ∃ s' es, es.map g = evs m ∧
      listen turn s (w m ++ rest) = (es ++ (listen turn s' rest).1, (listen turn s' rest).2))
    (s : σ) : (listen turn s (ms.flatMap w)).1.map g = ms.flatMap evs ∧
      (listen turn s (ms.flatMap w)).2 = some fin := by
  induction ms generalizing s with
  | nil =>
    rw [List.flatMap_nil, listen_error (hend s)]
    exact ⟨rfl, rfl⟩
  | cons m ms ih =>
    obtain ⟨s', es, hes, hlisten⟩ := hmsg m (List.mem_cons_self ..) s (ms.flatMap w)
    obtain ⟨hresto, hfin⟩ := ih (fun m' hm' => hmsg m' (List.mem_cons_of_mem _ hm')) s'
    rw [List.flatMap_cons, hlisten, List.map_append, hes, hresto, List.flatMap_cons]
    exact ⟨rfl, hfin⟩

end Listening

end MasterOfFiles.ByteStreams
