import Mathlib.Data.List.Infix

namespace MultiarchTuning

/-!
# Go strings — `strings.HasPrefix` and `strings.Replace`

The two functions of Go's `strings` package the operator calls.  Go compares and searches
bytes; a Lean `String` holds valid UTF-8 only, and UTF-8 is a prefix code, so comparing and
searching characters gives the same answers.

* `Strings.hasPrefix` — `strings.HasPrefix`.
* `Strings.cutList` — the first occurrence of a separator: the text before and after it.
* `Strings.replace` — `strings.Replace(s, old, new, n)` for a non-empty `old` and `n ≥ 0`,
  which replaces the first `n` non-overlapping occurrences of `old`, leftmost first.
* `replaceList_of_not_infix` and `cutList_dots` — the facts `getFolderName` needs: no
  occurrence means no change, and the first `..` of `h ++ ".." ++ p` is the separator
  when `h` has no `..` and does not end in a dot.
* `eq_of_cutList_eq_some` and `cutList_singleton_append` — what `cutList` finds is an
  occurrence, and a one-character separator is found at its first position: the facts that
  decoding a folder name back needs.
-/

namespace Strings

/-- `strings.HasPrefix(s, pre)`. -/
def hasPrefix (s pre : String) : Bool := pre.data.isPrefixOf s.data

/-- The first occurrence of `sep` in `s`: the characters before it and those after it. -/
def cutList (sep : List Char) (s : List Char) : Option (List Char × List Char) :=
  if sep.isPrefixOf s then some ([], s.drop sep.length)
  else match s with
    | [] => none
    | c :: cs => (cutList sep cs).map fun p => (c :: p.1, p.2)

/-- `strings.Replace` on characters: the first `n` occurrences of `old` become `new`. -/
def replaceList (s old new : List Char) : Nat → List Char
  | 0 => s
  | n + 1 =>
    match cutList old s with
    | none => s
    | some (before, after) => before ++ new ++ replaceList after old new n

/-- `strings.Replace(s, old, new, n)`, for a non-empty `old` and `n ≥ 0`. -/
def replace (s old new : String) (n : Nat) : String := ⟨replaceList s.data old.data new.data n⟩

/-- A separator that does not occur is not found. -/
theorem cutList_eq_none {sep : List Char} (hsep : sep ≠ []) :
    ∀ {s : List Char}, ¬ sep <:+: s → cutList sep s = none
  | [], _ => by
    rw [cutList]
    simp only [List.isPrefixOf_iff_prefix, List.prefix_nil, hsep, decide_False, if_false]
  | c :: cs, h => by
    rw [cutList, if_neg (by simpa using fun hp => h hp.isInfix),
      cutList_eq_none hsep fun hi => h (hi.trans (List.suffix_cons c cs).isInfix)]
    rfl

/-- `strings.Replace` changes nothing when `old` does not occur. -/
theorem replaceList_of_not_infix {s old new : List Char} (hold : old ≠ []) (h : ¬ old <:+: s)
    (n : Nat) : replaceList s old new n = s := by
  cases n with
  | zero => rfl
  | succ n => simp only [replaceList, cutList_eq_none hold h]

/-- The first `..` of `h ++ ".." ++ p` is the one after `h`, when `h` holds no `..` and does
    not end in a dot. -/
theorem cutList_dots (p : List Char) :
    ∀ {h : List Char}, ¬ ['.', '.'] <:+: h → h.getLast? ≠ some '.' →
      cutList ['.', '.'] (h ++ '.' :: '.' :: p) = some (h, p)
  | [], _, _ => by simp [cutList]
  | c :: cs, hdots, hlast => by
    have hcs : ¬ ['.', '.'] <:+: cs := fun hi => hdots (hi.trans (List.suffix_cons c cs).isInfix)
    have hlast' : cs.getLast? ≠ some '.' := by
      cases cs with
      | nil => simp
      | cons d ds => simpa [List.getLast?_cons] using hlast
    -- `c` cannot start the separator: it would be a trailing dot or the start of a `..`.
    have hstart : ¬ ['.', '.'] <+: c :: (cs ++ '.' :: '.' :: p) := by
      rintro ⟨t, ht⟩
      cases cs with
      | nil =>
        simp only [List.cons_append, List.nil_append, List.cons.injEq] at ht
        exact hlast (by rw [← ht.1]; rfl)
      | cons d ds =>
        simp only [List.cons_append, List.cons.injEq] at ht
        exact hdots ⟨[], ds, by simp [← ht.1, ← ht.2.1]⟩
    rw [List.cons_append, cutList, if_neg (by simpa using hstart), cutList_dots p hcs hlast']
    rfl

/-- What `cutList` finds is an occurrence: the text is the part before, the separator, and
    the part after. -/
theorem eq_of_cutList_eq_some {sep : List Char} :
    ∀ {s before after : List Char}, cutList sep s = some (before, after) →
      s = before ++ sep ++ after
  | s, before, after, h => by
    unfold cutList at h
    split_ifs at h with hp
    · cases h
      obtain ⟨t, rfl⟩ := List.isPrefixOf_iff_prefix.mp hp
      simp
    · match s, h with
      | c :: cs, h =>
        obtain ⟨⟨b, a⟩, hcut, heq⟩ := Option.map_eq_some'.mp h
        cases heq
        simp [eq_of_cutList_eq_some hcut]

/-- The first occurrence of a one-character separator is its first position. -/
theorem cutList_singleton_append {c : Char} {after : List Char} :
    ∀ {before : List Char}, c ∉ before →
      cutList [c] (before ++ c :: after) = some (before, after)
  | [], _ => by simp [cutList]
  | d :: ds, h => by
    simp only [List.mem_cons, not_or] at h
    rw [List.cons_append, cutList, if_neg (by simpa using h.1),
      cutList_singleton_append h.2]
    rfl

end Strings

end MultiarchTuning
