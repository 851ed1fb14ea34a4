import PitBox.Foundations.Transition
import PitBox.Foundations.Table

/-!
# The linear-memory limit of a Store

The limiter that is installed for every execution, and a Store that asks it
for each creation and growth of a linear memory. The limiter sees one memory
at a time: it bounds every memory by the configured limit, and so bounds their
sum only where there is no second memory with a page in it.

Sizes are bytes as natural numbers; the limiter only compares them.
-/

namespace PitBox.Runtime

open Table

def pageSize : ℕ := 65536

structure RuntimeLimiter where
  memoryLimit : Option ℕ
  memoryExceeded : Bool
  deriving DecidableEq, Repr

namespace RuntimeLimiter

def new (memoryLimit : Option ℕ) : RuntimeLimiter where
  memoryLimit
  memoryExceeded := false

/-- Whether a memory may take the desired size. -/
def memoryGrowing (limiter : RuntimeLimiter) (_current desired : ℕ) (_maximum : Option ℕ) :
    RuntimeLimiter × Except String Bool :=
  match limiter.memoryLimit with
  | some limit =>
    if desired > limit then
      ({ limiter with memoryExceeded := true }, .error
        s!"linear memory growth to {desired} bytes exceeds configured limit of {limit} bytes")
    else (limiter, .ok true)
  | none => (limiter, .ok true)

theorem memoryGrowing_limit (limiter : RuntimeLimiter) (current desired : ℕ)
    (maximum : Option ℕ) :
    (limiter.memoryGrowing current desired maximum).1.memoryLimit = limiter.memoryLimit := by
  unfold memoryGrowing
  split
  · split_ifs <;> rfl
  · rfl

theorem memoryGrowing_ok {limiter : RuntimeLimiter} {limit : ℕ}
    (hlimit : limiter.memoryLimit = some limit) (current desired : ℕ) (maximum : Option ℕ) :
    (limiter.memoryGrowing current desired maximum).2 = .ok true ↔ desired ≤ limit := by
  unfold memoryGrowing
  rw [hlimit]
  by_cases h : desired > limit
  · simp [h]
  · simp [h, Nat.le_of_not_lt h]

end RuntimeLimiter

/-- What the guest asks of its Store: a new memory, or pages for an old one. -/
inductive MemoryRequest where
  | create (minimum : ℕ) (maximum : Option ℕ)
  | grow (memory : ℕ) (delta : ℕ) (maximum : Option ℕ)
  deriving DecidableEq, Repr

def MemoryRequest.isCreate : MemoryRequest → Bool
  | .create _ _ => true
  | .grow _ _ _ => false

/-- A Store with the sizes of its linear memories. -/
structure Store where
  limits : RuntimeLimiter
  memories : List ℕ
  deriving DecidableEq, Repr

namespace Store

/-- A Store of a request with a memory limit. -/
def new (memoryBytes : ℕ) : Store where
  limits := .new (some memoryBytes)
  memories := []

/-- The limiter is asked for a desired size; the memories are the new ones
exactly when it returns `Ok(true)`. -/
def resize (s : Store) (current desired : ℕ) (maximum : Option ℕ) (memories : List ℕ) : Store :=
  match s.limits.memoryGrowing current desired maximum with
  | (limits, .ok true) => { limits, memories }
  | (limits, _) => { s with limits }

/-- One request of the guest. -/
def ask (s : Store) : MemoryRequest → Store
  | .create minimum maximum =>
    s.resize 0 (minimum * pageSize) maximum (s.memories ++ [minimum * pageSize])
  | .grow memory delta maximum =>
    match s.memories[memory]? with
    | some current =>
      s.resize current (current + delta * pageSize) maximum
        (s.memories.set memory (current + delta * pageSize))
    | none => s

def run (s : Store) (requests : List MemoryRequest) : Store := requests.foldl ask s

def memoryBytes (s : Store) : ℕ := s.memories.sum

/-- What the limiter does guarantee: every memory is whole pages within the limit. -/
structure Bounded (limit : ℕ) (s : Store) : Prop where
  memoryLimit : s.limits.memoryLimit = some limit
  memory_le : ∀ bytes ∈ s.memories, bytes ≤ limit
  pages : ∀ bytes ∈ s.memories, pageSize ∣ bytes

theorem bounded_new (limit : ℕ) : (new limit).Bounded limit := by
  constructor <;> simp [new, RuntimeLimiter.new]

theorem resize_cases {limit : ℕ} {s : Store} (h : s.limits.memoryLimit = some limit)
    (current desired : ℕ) (maximum : Option ℕ) (memories : List ℕ) :
    (s.resize current desired maximum memories).limits.memoryLimit = some limit ∧
      (desired ≤ limit ∧ (s.resize current desired maximum memories).memories = memories ∨
        (s.resize current desired maximum memories).memories = s.memories) := by
  have hkeep := s.limits.memoryGrowing_limit current desired maximum
  have hok := RuntimeLimiter.memoryGrowing_ok h current desired maximum
  unfold resize
  split
  · rename_i limits hgrow
    rw [hgrow] at hkeep hok
    exact ⟨hkeep.trans h, .inl ⟨hok.mp rfl, rfl⟩⟩
  · rename_i limits outcome _ hgrow
    rw [hgrow] at hkeep
    exact ⟨hkeep.trans h, .inr rfl⟩

/-- A resize that only brings in the size the limiter was asked for. -/
theorem Bounded.resize {limit : ℕ} {s : Store} (h : s.Bounded limit) {current desired : ℕ}
    {maximum : Option ℕ} {memories : List ℕ} (hpages : pageSize ∣ desired)
    (hmem : ∀ bytes ∈ memories, bytes ∈ s.memories ∨ bytes = desired) :
    (s.resize current desired maximum memories).Bounded limit := by
  obtain ⟨hlimit, ⟨hle, hnew⟩ | hsame⟩ :=
    resize_cases h.memoryLimit current desired maximum memories
  · refine ⟨hlimit, fun bytes hb => ?_, fun bytes hb => ?_⟩
    · rw [hnew] at hb
      rcases hmem bytes hb with hb | rfl
      · exact h.memory_le bytes hb
      · exact hle
    · rw [hnew] at hb
      rcases hmem bytes hb with hb | rfl
      · exact h.pages bytes hb
      · exact hpages
  · exact ⟨hlimit, hsame ▸ h.memory_le, hsame ▸ h.pages⟩

theorem resize_length_le {limit : ℕ} {s : Store} (h : s.Bounded limit) {current desired k : ℕ}
    {maximum : Option ℕ} {memories : List ℕ} (hlength : memories.length ≤ s.memories.length + k) :
    (s.resize current desired maximum memories).memories.length ≤ s.memories.length + k := by
  obtain ⟨-, ⟨-, hnew⟩ | hsame⟩ := resize_cases h.memoryLimit current desired maximum memories
  · rwa [hnew]
  · rw [hsame]
    exact Nat.le_add_right _ _

/-- One request keeps every memory within the limit and adds at most one. -/
theorem Bounded.ask {limit : ℕ} {s : Store} (h : s.Bounded limit) (r : MemoryRequest) :
    (s.ask r).Bounded limit ∧
      (s.ask r).memories.length ≤ s.memories.length + r.isCreate.toNat := by
  cases r with
  | create minimum maximum =>
    refine ⟨h.resize (Nat.dvd_mul_left _ _) fun bytes hb => ?_, resize_length_le h ?_⟩
    · simpa using hb
    · simp [MemoryRequest.isCreate]
  | grow memory delta maximum =>
    simp only [Store.ask]
    cases hget : s.memories[memory]? with
    | none => exact ⟨h, Nat.le_add_right _ _⟩
    | some current =>
      have hpages := h.pages current (List.mem_of_getElem? hget)
      refine ⟨h.resize (Nat.dvd_add hpages (Nat.dvd_mul_left _ _)) fun bytes hb => ?_,
        resize_length_le h (by simp)⟩
      exact List.mem_or_eq_of_mem_set hb

theorem Bounded.run {limit : ℕ} {s : Store} (h : s.Bounded limit) (requests : List MemoryRequest) :
    (s.run requests).Bounded limit ∧
      (s.run requests).memories.length ≤
        s.memories.length + tally MemoryRequest.isCreate requests := by
  induction requests generalizing s with
  | nil => exact ⟨h, le_rfl⟩
  | cons r requests ih =>
    obtain ⟨hone, hlength⟩ := h.ask r
    obtain ⟨hall, hrest⟩ := ih hone
    refine ⟨hall, hrest.trans ?_⟩
    simp only [tally, total_cons] at hrest ⊢
    omega

theorem Bounded.memoryBytes_le {limit : ℕ} {s : Store} (h : s.Bounded limit)
    (hsmall : s.memories.length ≤ 1 ∨ limit < pageSize) : s.memoryBytes ≤ limit := by
  rcases hsmall with hone | hlimit
  · match hm : s.memories with
    | [] => simp [memoryBytes, hm]
    | [bytes] => simpa [memoryBytes, hm] using h.memory_le bytes (by simp [hm])
    | _ :: _ :: _ => simp [hm] at hone
  · have hzero : ∀ bytes ∈ s.memories, bytes = 0 := fun bytes hb =>
      Nat.eq_zero_of_dvd_of_lt (h.pages bytes hb) ((h.memory_le bytes hb).trans_lt hlimit)
    rw [memoryBytes, List.sum_eq_zero hzero]
    exact Nat.zero_le _

/-- The guest creates two memories, each as large as the limit allows. -/
def twoMemories (limit : ℕ) : List MemoryRequest :=
  List.replicate 2 (.create (limit / pageSize) none)

theorem memoryBytes_twoMemories (limit : ℕ) :
    ((new limit).run (twoMemories limit)).memoryBytes = 2 * (limit / pageSize * pageSize) := by
  have hle : ¬ limit / pageSize * pageSize > limit := not_lt.mpr (Nat.div_mul_le_self _ _)
  simp [twoMemories, run, ask, resize, new, RuntimeLimiter.new, RuntimeLimiter.memoryGrowing, hle,
    memoryBytes, Nat.two_mul]

/-- The limit bounds the sum of all linear memories of a Store, whatever its
guest asks, exactly when the Store has at most one memory or the limit is less
than a page. -/
theorem memoryBytes_le_limit_iff (limit memories : ℕ) :
    (∀ requests, tally MemoryRequest.isCreate requests ≤ memories →
      ((new limit).run requests).memoryBytes ≤ limit) ↔ memories ≤ 1 ∨ limit < pageSize := by
  constructor
  · intro h
    by_contra hlarge
    push Not at hlarge
    have htwo := h (twoMemories limit) hlarge.1
    rw [memoryBytes_twoMemories] at htwo
    have hpage : 1 ≤ limit / pageSize := (Nat.one_le_div_iff (by decide)).mpr hlarge.2
    have hmod := Nat.div_add_mod limit pageSize
    have hlt := Nat.mod_lt limit (show 0 < pageSize by decide)
    have hmul : pageSize ≤ limit / pageSize * pageSize := Nat.le_mul_of_pos_left _ hpage
    rw [Nat.mul_comm] at hmod
    omega
  · intro hsmall requests hcount
    obtain ⟨hbounded, hlength⟩ := (bounded_new limit).run requests
    apply hbounded.memoryBytes_le
    refine hsmall.imp_left fun hone => ?_
    exact hlength.trans ((Nat.zero_add _).trans_le (hcount.trans hone))

/-- Two memories of one page under a limit of one page. -/
theorem twoMemories_exceed_limit :
    ¬ ∀ (limit : ℕ) (requests : List MemoryRequest),
      ((new limit).run requests).memoryBytes ≤ limit := by
  intro h
  exact absurd (h pageSize (twoMemories pageSize)) (by decide)

end Store

end PitBox.Runtime
