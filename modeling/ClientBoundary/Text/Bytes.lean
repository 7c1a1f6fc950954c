/-! Byte offsets into a text. A text is a list of characters; its bytes are those of its
UTF-8 form, and an offset is good for cutting only where a character starts or the text ends. -/
namespace ClientBoundary.Text

def byteLength : List Char → Nat
  | [] => 0
  | c :: rest => c.utf8Size + byteLength rest

/-- The text before and from a byte offset, or nothing if the offset is past the end or
inside a character. -/
def cut? : Nat → List Char → Option (List Char × List Char)
  | 0, text => some ([], text)
  | _ + 1, [] => none
  | n + 1, c :: rest =>
    if c.utf8Size ≤ n + 1 then
      (cut? (n + 1 - c.utf8Size) rest).map fun (before, after) => (c :: before, after)
    else none

def slice? (start stop : Nat) (text : List Char) : Option (List Char) := do
  if stop < start then none
  let (_, after) ← cut? start text
  let (inside, _) ← cut? (stop - start) after
  return inside

theorem byteLength_append (a b : List Char) :
    byteLength (a ++ b) = byteLength a + byteLength b := by
  induction a with
  | nil => simp [byteLength]
  | cons c rest ih => simp [byteLength, ih, Nat.add_assoc]

theorem cut?_append {n : Nat} {text before after : List Char}
    (h : cut? n text = some (before, after)) : before ++ after = text ∧ byteLength before = n := by
  fun_induction cut? n text generalizing before after with
  | case1 text => simp_all [byteLength]
  | case2 => simp at h
  | case3 n c rest fits ih =>
    obtain ⟨⟨b, a⟩, found, eq⟩ := Option.map_eq_some_iff.1 h
    obtain ⟨rfl, rfl⟩ := Prod.mk.inj eq
    obtain ⟨rfl, size⟩ := ih found
    simp only [List.cons_append, byteLength, size, true_and]
    omega
  | case4 => simp at h

theorem cut?_byteLength (before after : List Char) :
    cut? (byteLength before) (before ++ after) = some (before, after) := by
  induction before with
  | nil => simp [byteLength, cut?]
  | cons c rest ih =>
    have positive : 0 < c.utf8Size := c.utf8Size_pos
    obtain ⟨n, size⟩ : ∃ n, byteLength (c :: rest) = n + 1 :=
      ⟨byteLength (c :: rest) - 1, by simp only [byteLength]; omega⟩
    have same : n + 1 - c.utf8Size = byteLength rest := by simp only [byteLength] at size; omega
    have fits : c.utf8Size ≤ n + 1 := by simp only [byteLength] at size; omega
    simp [size, cut?, fits, same, ih]

end ClientBoundary.Text
