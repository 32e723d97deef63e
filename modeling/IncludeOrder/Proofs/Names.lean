import IncludeOrder.Proofs.Lines

/-!
# IncludeOrder.Proofs.Names

The names of a path. A path below another one has the names of that path and one more (`names_join`),
and the file name of a path is its last name, unless that is one of the two that stand for directories
(`fileName?_of_names`). What is read off a path beyond its names is read off the file name.
-/

namespace IncludeOrder
namespace Path

variable {q r : Path} {n : Name} {ns : List Name}

/-- A name that something can have in a directory. -/
structure Plain (n : Name) : Prop where
  ne_nil : n ≠ []
  no_slash : slash ∉ n
  ne_here : n ≠ here
  ne_up : n ≠ up

theorem plain_iff : Plain n ↔ n ≠ [] ∧ slash ∉ n ∧ n ≠ here ∧ n ≠ up := by
  constructor
  · intro h
    exact ⟨h.ne_nil, h.no_slash, h.ne_here, h.ne_up⟩
  · rintro ⟨h1, h2, h3, h4⟩
    exact ⟨h1, h2, h3, h4⟩

instance (n : Name) : Decidable (Plain n) :=
  decidable_of_iff _ plain_iff.symm

/-- Of the names of a path, only the two that stand for directories are not plain. -/
theorem plain_of_mem_names (h : n ∈ q.names) (hn : n ≠ here) (hn' : n ≠ up) : Plain n := by
  rw [names, List.mem_filter] at h
  exact ⟨by simpa using h.2, not_mem_of_mem_splitOn h.1, hn, hn'⟩

/-! ## Paths below a path -/

theorem Plain.isAbsolute (hn : Plain n) : (Path.mk n).isAbsolute = false := by
  simp only [Path.isAbsolute, decide_eq_false_iff_not]
  intro h
  exact hn.no_slash (List.mem_of_head? h)

theorem join_eq (hq : q.bytes ≠ []) (hn : Plain n) :
    q.join n = ⟨if q.endsInSlash then q.bytes ++ n else q.bytes ++ slash :: n⟩ := by
  have hno : ((Path.mk n).isAbsolute || q.bytes = []) = false := by simp [hn.isAbsolute, hq]
  rw [join, hno, if_neg Bool.false_ne_true]
  split <;> rfl

theorem join_ne_nil (hq : q.bytes ≠ []) (hn : Plain n) : (q.join n).bytes ≠ [] := by
  rw [join_eq hq hn]
  split <;> simp [hq]

theorem isAbsolute_join (hq : q.bytes ≠ []) (hn : Plain n) :
    (q.join n).isAbsolute = q.isAbsolute := by
  obtain ⟨b, bs, hb⟩ := List.exists_cons_of_ne_nil hq
  rw [join_eq hq hn]
  split <;> simp [isAbsolute, hb]

theorem endsInSlash_join (hq : q.bytes ≠ []) (hn : Plain n) :
    (q.join n).endsInSlash = false := by
  obtain ⟨bs, b, hb⟩ := (List.eq_nil_or_concat n).resolve_left hn.ne_nil
  have hne : b ≠ slash := by
    rintro rfl
    exact hn.no_slash (by simp [hb])
  rw [join_eq hq hn, endsInSlash, hb, List.concat_eq_append]
  split
  · simp [← List.append_assoc, hne]
  · rw [← List.cons_append, ← List.append_assoc, List.getLast?_concat]
    simp [hne]

theorem names_join (hq : q.bytes ≠ []) (hn : Plain n) : (q.join n).names = q.names ++ [n] := by
  have hsplit : n.splitOn slash = [n] := List.splitOn_eq_singleton hn.no_slash
  have hfilter : [n].filter (fun m => m ≠ []) = [n] := by simp [hn.ne_nil]
  rw [join_eq hq hn]
  by_cases hs : q.endsInSlash = true
  · -- the slash at the end of the path does not make a name
    have hlast : q.bytes.getLast? = some slash := by simpa [endsInSlash] using hs
    obtain ⟨bs, hbs⟩ := List.getLast?_eq_some_iff.1 hlast
    simp only [names, hs, if_true, hbs, List.append_assoc, List.singleton_append,
      List.splitOn_append_cons_self, hsplit, List.filter_append, hfilter, List.splitOn_nil]
    simp
  · simp only [names, hs, if_false, Bool.false_eq_true, List.splitOn_append_cons_self, hsplit,
      List.filter_append, hfilter]

theorem names_foldl_join (hq : q.bytes ≠ []) (hns : ∀ n ∈ ns, Plain n) :
    (ns.foldl join q).names = q.names ++ ns := by
  induction ns generalizing q with
  | nil => simp
  | cons n ns ih =>
    have hn : Plain n := hns n List.mem_cons_self
    rw [List.foldl_cons, ih (join_ne_nil hq hn) fun m hm => hns m (List.mem_cons_of_mem n hm),
      names_join hq hn, List.append_assoc, List.singleton_append]

/-- The names of a path behind those of a path above it. -/
def below (q r : Path) : List Name :=
  r.names.drop q.names.length

theorem below_eq (h : r.names = q.names ++ ns) : q.below r = ns := by
  rw [below, h, List.drop_left]

theorem below_eq_cons (hq : q.bytes ≠ []) (hn : Plain n) (h : r.names = (q.join n).names ++ ns) :
    q.below r = n :: (q.join n).below r := by
  rw [below_eq h]
  rw [names_join hq hn, List.append_assoc] at h
  exact below_eq h

/-! ## The file name -/

theorem getLast?_parts (h : q.names = ns ++ [n]) (hn : n ≠ here) :
    q.parts.getLast? = some n := by
  have hfilter : ∀ ms : List Name, ((ms ++ [n]).filter (· ≠ here)).getLast? = some n := by
    intro ms
    simp [List.filter_append, hn]
  rw [parts, h]
  cases ns with
  | nil => simp [hn]
  | cons m ms =>
    simp only [List.cons_append]
    split
    · rw [List.getLast?_cons, hfilter]
      rfl
    · exact hfilter (m :: ms)

theorem fileName?_of_names (h : q.names = ns ++ [n]) (hn : n ≠ here) (hn' : n ≠ up) :
    q.fileName? = some n := by
  simp [fileName?, getLast?_parts h hn, hn, hn']

theorem fileName?_join (hq : q.bytes ≠ []) (hn : Plain n) : (q.join n).fileName? = some n :=
  fileName?_of_names (names_join hq hn) hn.ne_here hn.ne_up

theorem stem?_congr (h : q.fileName? = r.fileName?) : q.stem? = r.stem? := by
  rw [stem?, stem?, h]

end Path
end IncludeOrder
