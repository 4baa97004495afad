/-!
# Where a word ends

Characters of one sort are taken off the front of a text as far as they go. In front of a character
of another sort, or at the end, these are exactly the characters of a word.
-/

namespace QueryScope

variable {p : Char → Bool} {word other rest rest' : List Char} {c : Char}

theorem takeWhile_word (hword : ∀ c ∈ word, p c = true)
    (hrest : ∀ c, rest.head? = some c → p c = false) : (word ++ rest).takeWhile p = word := by
  rw [List.takeWhile_append_of_pos hword]
  cases rest with
  | nil => rw [List.takeWhile_nil, List.append_nil]
  | cons c rest => rw [List.takeWhile_cons_of_neg (by simp [hrest c rfl]), List.append_nil]

theorem dropWhile_word (hword : ∀ c ∈ word, p c = true)
    (hrest : ∀ c, rest.head? = some c → p c = false) : (word ++ rest).dropWhile p = rest := by
  rw [List.dropWhile_append_of_pos hword]
  cases rest with
  | nil => rfl
  | cons c rest => rw [List.dropWhile_cons_of_neg (by simp [hrest c rfl])]

theorem takeWhile_append_cons (h : ∀ a ∈ word, p a = true) (hc : p c = false) :
    (word ++ c :: rest).takeWhile p = word :=
  takeWhile_word h fun _ hhead => Option.some.inj hhead ▸ hc

theorem dropWhile_append_cons (h : ∀ a ∈ word, p a = true) (hc : p c = false) :
    (word ++ c :: rest).dropWhile p = c :: rest :=
  dropWhile_word h fun _ hhead => Option.some.inj hhead ▸ hc

/-- Words of one sort are told apart by what comes after them. -/
theorem word_append_inj (hword : ∀ c ∈ word, p c = true) (hother : ∀ c ∈ other, p c = true)
    (hrest : ∀ c, rest.head? = some c → p c = false)
    (hrest' : ∀ c, rest'.head? = some c → p c = false) (h : word ++ rest = other ++ rest') :
    word = other ∧ rest = rest' := by
  have hsame : word = other := by
    rw [← takeWhile_word hword hrest, h, takeWhile_word hother hrest']
  subst hsame
  exact ⟨rfl, List.append_cancel_left h⟩

end QueryScope
