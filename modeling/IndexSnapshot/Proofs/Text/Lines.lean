import IndexSnapshot.Proofs.Text.Split

/-!
# Texts as lines

Texts without line feeds are told from each other when each is written with a line feed behind it:
the lines of what is written are the texts (`lines_join`). A text without controls has no line
feeds.
-/

namespace IndexSnapshot.Text

variable {c : Char} {cs ds : List Char} {text line : String} {texts : List String}

/-- There is no control below the space among the characters, and so no line break. -/
def IsClear (cs : List Char) : Prop := ∀ c ∈ cs, 32 ≤ c.toNat

instance (cs : List Char) : Decidable (IsClear cs) := List.decidableBAll _ cs

@[simp] theorem isClear_nil : IsClear [] := List.forall_mem_nil _

@[simp] theorem isClear_cons : IsClear (c :: cs) ↔ 32 ≤ c.toNat ∧ IsClear cs := List.forall_mem_cons

@[simp] theorem isClear_append : IsClear (cs ++ ds) ↔ IsClear cs ∧ IsClear ds :=
  List.forall_mem_append

theorem IsClear.lineFeed_notMem (h : IsClear cs) : '\n' ∉ cs := fun hmem ↦
  absurd (h _ hmem) (by decide)

/-- The lines of a text, each of which ends in a line feed. -/
def lines (text : String) : List String :=
  (splitAtMarks (· = '\n') text.toList).dropLast.map String.ofList

theorem lines_append (h : '\n' ∉ line.toList) (text : String) :
    lines (line ++ "\n" ++ text) = line :: lines text := by
  have hsplit : splitAtMarks (· = '\n') (line ++ "\n" ++ text).toList =
      line.toList :: splitAtMarks (· = '\n') text.toList := by
    have hline : splitAtMarks (· = '\n') line.toList = [line.toList] :=
      splitAtMarks_of_forall fun c hc ↦ decide_eq_false fun heq ↦ h (heq ▸ hc)
    have htoList : (line ++ "\n" ++ text).toList = line.toList ++ '\n' :: text.toList := by
      simp
    rw [htoList, splitAtMarks_append_mark (decide_eq_true rfl), hline, List.singleton_append]
  rw [lines, hsplit, List.dropLast_cons_of_ne_nil (splitAtMarks_ne_nil _ _), List.map_cons,
    String.ofList_toList, lines]

/-- **Texts without line feeds are the lines of what is written of them.** -/
theorem lines_join (h : ∀ line ∈ texts, '\n' ∉ line.toList) :
    lines (String.join (texts.map fun line ↦ line ++ "\n")) = texts := by
  induction texts with
  | nil => rfl
  | cons line texts ih =>
    rw [List.map_cons, String.join_cons, lines_append (h line List.mem_cons_self),
      ih fun l hl ↦ h l (List.mem_cons_of_mem _ hl)]

end IndexSnapshot.Text
