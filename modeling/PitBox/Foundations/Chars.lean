import Mathlib.Data.List.DropRight
import Mathlib.Tactic

/-!
# Text as lists of characters

Trimming, splitting and joining of text, comparison without regard to ASCII
case, and UTF-8. White space is that of Unicode. A slice between byte offsets
exists only if the offsets are boundaries of characters.
-/

namespace PitBox.Chars

/-- The property `White_Space`. -/
def isWhitespace (c : Char) : Bool :=
  let n := c.toNat
  (9 ≤ n && n ≤ 13) || n == 0x20 || n == 0x85 || n == 0xa0 || n == 0x1680 ||
    (0x2000 ≤ n && n ≤ 0x200a) || n == 0x2028 || n == 0x2029 || n == 0x202f || n == 0x205f ||
    n == 0x3000

def trim (s : List Char) : List Char := (s.dropWhile isWhitespace).rdropWhile isWhitespace

def splitWhitespace (s : List Char) : List (List Char) :=
  (s.splitOnP isWhitespace).filter fun word => !word.isEmpty

def splitOnce (sep : Char) : List Char → Option (List Char × List Char)
  | [] => none
  | c :: s => if c = sep then some ([], s) else (splitOnce sep s).map fun p => (c :: p.1, p.2)

/-- Whether white space is owed before the next word. -/
def collapseFrom : Bool → List Char → List Char
  | _, [] => []
  | owed, c :: s =>
    if isWhitespace c then collapseFrom true s
    else if owed then ' ' :: c :: collapseFrom false s
    else c :: collapseFrom false s

/-- Every run of white space becomes one space, and none is left at the ends. -/
def collapse (s : List Char) : List Char := collapseFrom false (s.dropWhile isWhitespace)

def eqIgnoreAsciiCase (s t : List Char) : Bool := s.map Char.toLower == t.map Char.toLower

/-! ### Splitting -/

section Split

variable {sep : Char} {s t key value : List Char}

theorem splitOnce_of_notMem (h : sep ∉ key) : splitOnce sep (key ++ sep :: value) =
    some (key, value) := by
  induction key with
  | nil => simp [splitOnce]
  | cons c key ih =>
    have hc : c ≠ sep := fun heq => h (by simp [heq])
    have hrest := ih fun hmem => h (by simp [hmem])
    simp [splitOnce, hc, hrest]

theorem intercalate_injective {xs ys : List (List Char)} (hxs : ∀ x ∈ xs, sep ∉ x)
    (hys : ∀ y ∈ ys, sep ∉ y) (hx : xs ≠ []) (hy : ys ≠ [])
    (h : [sep].intercalate xs = [sep].intercalate ys) : xs = ys := by
  rw [← List.splitOn_intercalate sep hxs hx, h, List.splitOn_intercalate sep hys hy]

/-- The list of parts can be empty if no part is. -/
theorem intercalate_injective_of_ne_nil {xs ys : List (List Char)}
    (hxs : ∀ x ∈ xs, x ≠ [] ∧ sep ∉ x) (hys : ∀ y ∈ ys, y ≠ [] ∧ sep ∉ y)
    (h : [sep].intercalate xs = [sep].intercalate ys) : xs = ys := by
  have hnil {zs : List (List Char)} (hzs : ∀ z ∈ zs, z ≠ [] ∧ sep ∉ z)
      (hz : [sep].intercalate zs = []) : zs = [] := by
    rcases zs with _ | ⟨z, _ | ⟨w, zs⟩⟩
    · rfl
    · exact absurd (by simpa using hz) (hzs z (by simp)).1
    · simp at hz
  by_cases hx : xs = []
  · subst hx
    exact (hnil hys h.symm).symm
  · by_cases hy : ys = []
    · subst hy
      exact hnil hxs h
    · exact intercalate_injective (fun x hx => (hxs x hx).2) (fun y hy => (hys y hy).2) hx hy h

theorem filter_splitOn_intercalate {xs : List (List Char)} (hxs : ∀ x ∈ xs, x ≠ [] ∧ sep ∉ x) :
    (([sep].intercalate xs).splitOn sep).filter (fun x => !x.isEmpty) = xs := by
  by_cases hx : xs = []
  · subst hx
    rfl
  · rw [List.splitOn_intercalate sep (fun x h => (hxs x h).2) hx]
    apply List.filter_eq_self.mpr
    intro x h
    simpa using (hxs x h).1

theorem intercalate_cons (x : List Char) (xs : List (List Char)) :
    [sep].intercalate (x :: xs) = x ++ xs.flatMap (sep :: ·) := by
  induction xs generalizing x with
  | nil => simp
  | cons y ys ih => rw [List.intercalate_cons_cons, ih]; simp

theorem notMem_intercalate {c : Char} (hc : c ≠ sep) {xs : List (List Char)}
    (h : ∀ x ∈ xs, c ∉ x) : c ∉ [sep].intercalate xs := by
  cases xs with
  | nil => simp
  | cons x xs =>
    rw [intercalate_cons]
    simp only [List.mem_append, List.mem_flatMap, List.mem_cons, not_or, not_exists, not_and]
    exact ⟨h x (by simp), fun y hy => ⟨hc, h y (by simp [hy])⟩⟩

theorem append_cons_injective {x y : List Char} (hs : sep ∉ s) (ht : sep ∉ t)
    (h : s ++ sep :: x = t ++ sep :: y) : s = t ∧ x = y := by
  have hsplit := congrArg (splitOnce sep) h
  rw [splitOnce_of_notMem hs, splitOnce_of_notMem ht] at hsplit
  exact Prod.mk.inj (Option.some.inj hsplit)

end Split

/-! ### White space -/

section Whitespace

variable {s : List Char}

theorem trim_eq_self (hfirst : ∀ c ∈ s.head?, isWhitespace c = false)
    (hlast : ∀ c ∈ s.getLast?, isWhitespace c = false) : trim s = s := by
  have hleft : s.dropWhile isWhitespace = s := by
    cases s with
    | nil => rfl
    | cons c s => simp [hfirst c rfl]
  rw [trim, hleft]
  apply List.rdropWhile_eq_self_iff.mpr
  intro hne
  rw [hlast _ (List.getLast?_eq_getLast_of_ne_nil hne)]
  exact Bool.false_ne_true

theorem trim_append {gap : List Char} (h : ∀ c ∈ gap, isWhitespace c) :
    trim (gap ++ s) = trim s := by
  rw [trim, List.dropWhile_append_of_pos h, trim]

theorem splitWhitespace_cons {c : Char} (h : isWhitespace c) :
    splitWhitespace (c :: s) = splitWhitespace s := by
  simp [splitWhitespace, List.splitOnP_cons_eq_if_modifyHead, h]

theorem splitWhitespace_concat {c : Char} (h : isWhitespace c) :
    splitWhitespace (s ++ [c]) = splitWhitespace s := by
  simp [splitWhitespace, List.splitOnP_append_cons s [] h]

theorem splitWhitespace_dropWhile :
    splitWhitespace (s.dropWhile isWhitespace) = splitWhitespace s := by
  induction s with
  | nil => rfl
  | cons c s ih =>
    cases hc : isWhitespace c with
    | false => rw [List.dropWhile_cons_of_neg (by simp [hc])]
    | true => rw [List.dropWhile_cons_of_pos hc, ih, splitWhitespace_cons hc]

theorem splitWhitespace_rdropWhile :
    splitWhitespace (s.rdropWhile isWhitespace) = splitWhitespace s := by
  induction s using List.reverseRecOn with
  | nil => rfl
  | append_singleton s c ih =>
    cases hc : isWhitespace c with
    | false => rw [List.rdropWhile_concat_neg _ _ _ (by simp [hc])]
    | true => rw [List.rdropWhile_concat_pos _ _ _ hc, ih, splitWhitespace_concat hc]

theorem splitWhitespace_trim : splitWhitespace (trim s) = splitWhitespace s := by
  rw [trim, splitWhitespace_rdropWhile, splitWhitespace_dropWhile]

/-- Within a text the words that follow are set off by single spaces. -/
theorem collapseFrom_eq : collapseFrom true s = (splitWhitespace s).flatMap (' ' :: ·) ∧
    ∀ first rest, s.splitOnP isWhitespace = first :: rest →
      collapseFrom false s =
        first ++ (rest.filter fun word => !word.isEmpty).flatMap (' ' :: ·) := by
  induction s with
  | nil => simp [collapseFrom, splitWhitespace]
  | cons c s ih =>
    obtain ⟨head, tail, hsplit⟩ := List.exists_cons_of_ne_nil
      (List.splitOnP_ne_nil isWhitespace s)
    have hword := ih.2 head tail hsplit
    cases hc : isWhitespace c with
    | true =>
      refine ⟨by rw [collapseFrom, if_pos hc, ih.1, splitWhitespace_cons hc], ?_⟩
      intro first rest h
      rw [List.splitOnP_cons_eq_if_modifyHead, if_pos hc, List.cons.injEq] at h
      obtain ⟨rfl, rfl⟩ := h
      rw [collapseFrom, if_pos hc, ih.1, splitWhitespace, List.nil_append]
    | false =>
      have hcons : (c :: s).splitOnP isWhitespace = (c :: head) :: tail := by
        simp [List.splitOnP_cons_eq_if_modifyHead, hc, hsplit]
      constructor
      · simp [collapseFrom, hc, hword, splitWhitespace, hcons]
      · intro first rest h
        rw [hcons, List.cons.injEq] at h
        obtain ⟨rfl, rfl⟩ := h
        simp [collapseFrom, hc, hword]

/-- Joining the words by spaces collapses the white space. -/
theorem intercalate_splitWhitespace : [' '].intercalate (splitWhitespace s) = collapse s := by
  rw [collapse, ← splitWhitespace_dropWhile]
  cases hs : s.dropWhile isWhitespace with
  | nil => rfl
  | cons c t =>
    have hc : isWhitespace c = false := by
      have hhead := List.head?_dropWhile_not isWhitespace s
      rw [hs] at hhead
      simpa using hhead
    obtain ⟨first, rest, hsplit⟩ := List.exists_cons_of_ne_nil
      (List.splitOnP_ne_nil isWhitespace (c :: t))
    have hfirst : first ≠ [] := by
      rintro rfl
      simp only [List.splitOnP_cons_eq_if_modifyHead, hc] at hsplit
      cases hsplitTail : t.splitOnP isWhitespace <;> simp [hsplitTail] at hsplit
    rw [collapseFrom_eq.2 first rest hsplit, splitWhitespace, hsplit,
      List.filter_cons_of_pos (by simpa using hfirst), intercalate_cons]

theorem collapse_trim : collapse (trim s) = collapse s := by
  rw [← intercalate_splitWhitespace, splitWhitespace_trim, intercalate_splitWhitespace]

theorem mem_collapseFrom {owed : Bool} {c : Char} (h : c ∈ collapseFrom owed s) :
    c = ' ' ∨ isWhitespace c = false := by
  induction s generalizing owed with
  | nil => cases h
  | cons d s ih =>
    rw [collapseFrom] at h
    cases hd : isWhitespace d with
    | true => exact ih (by simpa [hd] using h)
    | false =>
      cases owed with
      | true =>
        simp only [hd, Bool.false_eq_true, if_false, if_true, List.mem_cons] at h
        rcases h with rfl | rfl | h
        · exact .inl rfl
        · exact .inr hd
        · exact ih h
      | false =>
        simp only [hd, Bool.false_eq_true, if_false, List.mem_cons] at h
        rcases h with rfl | h
        · exact .inr hd
        · exact ih h

theorem newline_notMem_collapse : '\n' ∉ collapse s := by
  intro h
  rcases mem_collapseFrom h with h | h
  · cases h
  · revert h
    decide

end Whitespace

/-! ### UTF-8 -/

def utf8 (s : List Char) : List UInt8 := s.flatMap String.utf8EncodeChar

/-- The rest of a text after its first `n` bytes. -/
def dropBytes? : ℕ → List Char → Option (List Char)
  | 0, s => some s
  | _ + 1, [] => none
  | n + 1, c :: s => if c.utf8Size ≤ n + 1 then dropBytes? (n + 1 - c.utf8Size) s else none

/-- The first `n` bytes of a text. -/
def takeBytes? : ℕ → List Char → Option (List Char)
  | 0, _ => some []
  | _ + 1, [] => none
  | n + 1, c :: s =>
    if c.utf8Size ≤ n + 1 then (takeBytes? (n + 1 - c.utf8Size) s).map (c :: ·) else none

/-- The text between two byte offsets. -/
def slice? (s : List Char) (start stop : ℕ) : Option (List Char) :=
  (takeBytes? stop s).bind (dropBytes? start)

section Utf8

variable {s t : List Char} {c : Char}

@[simp] theorem utf8_nil : utf8 [] = [] := rfl

theorem utf8_cons : utf8 (c :: s) = String.utf8EncodeChar c ++ utf8 s := rfl

theorem utf8_append : utf8 (s ++ t) = utf8 s ++ utf8 t := List.flatMap_append

theorem utf8_injective : Function.Injective utf8 := by
  intro s t h
  have hbytes : s.utf8Encode = t.utf8Encode := congrArg List.toByteArray h
  have hstring : String.ofList s = String.ofList t := by
    apply String.toByteArray_inj.mp
    rw [String.toByteArray_ofList, String.toByteArray_ofList, hbytes]
  exact String.ofList_injective hstring

@[simp] theorem utf8_eq_nil : utf8 s = [] ↔ s = [] :=
  ⟨fun h => utf8_injective (h.trans utf8_nil.symm), fun h => by rw [h, utf8_nil]⟩

theorem utf8EncodeChar_ascii (h : c.toNat < 128) :
    String.utf8EncodeChar c = [UInt8.ofNat c.toNat] := by
  have hle : c.val.toNat ≤ 0x7f := Nat.le_of_lt_succ h
  rw [String.utf8EncodeChar, if_pos hle]
  rfl

theorem lt_of_isAlphanum (h : c.isAlphanum) : c.toNat < 128 := by
  have hranges : c.isAlphanum = (decide (c.val ≥ 65 ∧ c.val ≤ 90) ||
      (decide (c.val ≥ 97) && decide (c.val ≤ 122)) ||
        (decide (c.val ≥ 48) && decide (c.val ≤ 57))) := rfl
  rw [hranges] at h
  simp only [Bool.or_eq_true, Bool.and_eq_true, decide_eq_true_eq, UInt32.le_iff_toNat_le] at h
  rcases h with (h | h) | h
  · exact lt_of_le_of_lt h.2 (by decide)
  · exact lt_of_le_of_lt h.2 (by decide)
  · exact lt_of_le_of_lt h.2 (by decide)

theorem isAlphanum_of_isLower (h : c.isLower) : c.isAlphanum := by
  change (c.isUpper || c.isLower || c.isDigit) = true
  rw [h, Bool.or_true, Bool.true_or]

theorem utf8_ascii (h : ∀ c ∈ s, c.toNat < 128) : utf8 s = s.map fun c => UInt8.ofNat c.toNat := by
  induction s with
  | nil => rfl
  | cons c s ih =>
    rw [utf8_cons, utf8EncodeChar_ascii (h c (by simp)), ih fun d hd => h d (by simp [hd])]
    rfl

theorem length_utf8_ascii (h : ∀ c ∈ s, c.toNat < 128) : (utf8 s).length = s.length := by
  rw [utf8_ascii h, List.length_map]

theorem utf8EncodeChar_head {b : UInt8} {rest : List UInt8}
    (h : String.utf8EncodeChar c = b :: rest) (hb : b.toNat < 128) : c = Char.ofNat b.toNat := by
  by_cases hc : c.toNat < 128
  · rw [utf8EncodeChar_ascii hc, List.cons.injEq] at h
    obtain ⟨rfl, -⟩ := h
    have hsize : c.toNat < UInt8.size := lt_trans hc (by decide)
    rw [UInt8.toNat_ofNat_of_lt' hsize, Char.ofNat_toNat]
  · exfalso
    have hlarge : ¬ c.val.toNat ≤ 0x7f := fun hle => hc (Nat.lt_succ_of_le hle)
    unfold String.utf8EncodeChar at h
    simp only [hlarge, if_false] at h
    split_ifs at h <;> simp only [List.cons.injEq] at h <;> obtain ⟨rfl, -⟩ := h <;>
      simp only [UInt8.toNat_ofNat'] at hb <;> omega

theorem eq_cons_of_utf8 {b : UInt8} {rest : List UInt8} (h : utf8 s = b :: rest)
    (hb : b.toNat < 128) : ∃ t, s = Char.ofNat b.toNat :: t := by
  cases s with
  | nil => cases h
  | cons c t =>
    rw [utf8_cons] at h
    obtain ⟨first, others, hc⟩ := List.exists_cons_of_ne_nil (String.utf8EncodeChar_ne_nil (c := c))
    rw [hc, List.cons_append, List.cons.injEq] at h
    obtain ⟨rfl, -⟩ := h
    exact ⟨t, by rw [utf8EncodeChar_head hc hb]⟩

/-! ### Slices -/

variable {n : ℕ}

theorem takeBytes_spec (h : takeBytes? n s = some t) : ∃ r, s = t ++ r ∧ (utf8 t).length = n := by
  induction s generalizing n t with
  | nil =>
    cases n with
    | zero => exact ⟨[], by simp_all [takeBytes?]⟩
    | succ n => simp [takeBytes?] at h
  | cons c s ih =>
    cases n with
    | zero => exact ⟨c :: s, by simp_all [takeBytes?]⟩
    | succ n =>
      rw [takeBytes?] at h
      split_ifs at h with hsize
      obtain ⟨u, hu, rfl⟩ := Option.map_eq_some_iff.mp h
      obtain ⟨r, rfl, hlength⟩ := ih hu
      refine ⟨r, rfl, ?_⟩
      rw [utf8_cons, List.length_append, String.length_utf8EncodeChar, hlength]
      omega

theorem dropBytes_spec (h : dropBytes? n s = some t) : ∃ r, s = r ++ t ∧ (utf8 r).length = n := by
  induction s generalizing n with
  | nil =>
    cases n with
    | zero => exact ⟨[], by simp_all [dropBytes?]⟩
    | succ n => simp [dropBytes?] at h
  | cons c s ih =>
    cases n with
    | zero => exact ⟨[], by simp_all [dropBytes?]⟩
    | succ n =>
      rw [dropBytes?] at h
      split_ifs at h with hsize
      obtain ⟨r, rfl, hlength⟩ := ih h
      refine ⟨c :: r, rfl, ?_⟩
      rw [utf8_cons, List.length_append, String.length_utf8EncodeChar, hlength]
      omega

theorem slice_spec {start stop : ℕ} (h : slice? s start stop = some t) :
    ∃ before after, s = before ++ t ++ after ∧ (utf8 before).length = start ∧
      (utf8 before).length + (utf8 t).length = stop := by
  obtain ⟨u, hu, ht⟩ := Option.bind_eq_some_iff.mp h
  obtain ⟨after, rfl, hstop⟩ := takeBytes_spec hu
  obtain ⟨before, rfl, hstart⟩ := dropBytes_spec ht
  exact ⟨before, after, rfl, hstart, by rw [← hstop, utf8_append, List.length_append]⟩

theorem length_utf8_cons (c : Char) (s : List Char) :
    ∃ n, (utf8 (c :: s)).length = n + 1 ∧ c.utf8Size ≤ n + 1 ∧
      n + 1 - c.utf8Size = (utf8 s).length := by
  have hpos := c.utf8Size_pos
  refine ⟨c.utf8Size + (utf8 s).length - 1, ?_⟩
  rw [utf8_cons, List.length_append, String.length_utf8EncodeChar]
  omega

theorem takeBytes_append : takeBytes? (utf8 s).length (s ++ t) = some s := by
  induction s with
  | nil => cases t <;> rfl
  | cons c s ih =>
    obtain ⟨n, hlength, hfits, hrest⟩ := length_utf8_cons c s
    rw [hlength, List.cons_append, takeBytes?, if_pos hfits, hrest, ih, Option.map_some]

theorem dropBytes_append : dropBytes? (utf8 s).length (s ++ t) = some t := by
  induction s with
  | nil => cases t <;> rfl
  | cons c s ih =>
    obtain ⟨n, hlength, hfits, hrest⟩ := length_utf8_cons c s
    rw [hlength, List.cons_append, dropBytes?, if_pos hfits, hrest, ih]

theorem slice_append {before after : List Char} {start stop : ℕ}
    (hstart : (utf8 before).length = start) (hstop : start + (utf8 t).length = stop) :
    slice? (before ++ t ++ after) start stop = some t := by
  have htake := takeBytes_append (s := before ++ t) (t := after)
  rw [utf8_append, List.length_append, hstart, hstop] at htake
  rw [slice?, htake, Option.bind_some, ← hstart, dropBytes_append]

/-- An ASCII byte is a character, and its offset a boundary. -/
theorem exists_split_of_ascii {b : UInt8} (h : (utf8 s)[n]? = some b) (hb : b.toNat < 128) :
    ∃ before after, s = before ++ Char.ofNat b.toNat :: after ∧ (utf8 before).length = n := by
  induction s generalizing n with
  | nil => simp at h
  | cons c s ih =>
    rw [utf8_cons] at h
    by_cases hn : n < (String.utf8EncodeChar c).length
    · rw [List.getElem?_append_left hn, List.getElem?_eq_getElem hn, Option.some.injEq] at h
      have hfirst : b.IsUTF8FirstByte := by
        have hall : ∀ k < 128, (UInt8.ofNat k).IsUTF8FirstByte := by decide
        have hbyte := hall b.toNat hb
        rwa [UInt8.ofNat_toNat] at hbyte
      rw [← h, UInt8.isUTF8FirstByte_getElem_utf8EncodeChar] at hfirst
      subst hfirst
      obtain ⟨first, rest, hc⟩ := List.exists_cons_of_ne_nil
        (String.utf8EncodeChar_ne_nil (c := c))
      have hhead : first = b := by simpa [hc] using h
      subst hhead
      exact ⟨[], s, by rw [utf8EncodeChar_head hc hb, List.nil_append], rfl⟩
    · rw [List.getElem?_append_right (Nat.le_of_not_lt hn)] at h
      obtain ⟨before, after, rfl, hlength⟩ := ih h
      refine ⟨c :: before, after, rfl, ?_⟩
      rw [utf8_cons, List.length_append, hlength]
      omega

theorem append_inj_utf8 {a b : List Char} (h : s ++ a = t ++ b)
    (hlength : (utf8 s).length = (utf8 t).length) : s = t ∧ a = b := by
  have hbytes := congrArg utf8 h
  rw [utf8_append, utf8_append] at hbytes
  obtain ⟨hs, ha⟩ := List.append_inj hbytes hlength
  exact ⟨utf8_injective hs, utf8_injective ha⟩

end Utf8

end PitBox.Chars
