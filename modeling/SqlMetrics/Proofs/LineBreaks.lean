import SqlMetrics.TextLength

/-! # Lines and line breaks

The lines of a text are its line breaks, a carriage return with a line feed behind it taken as one,
and what stands behind the last of them (`countLines_add_returnFeeds`).  Both sides are sums over
the characters, so lines add up where a text is cut behind a whole line break.  `lines_of_breaks`
says so of texts, and what becomes of the lines where a return is left out before a feed. -/
set_option autoImplicit false
namespace SqlMetrics

/-- The carriage returns with a line feed right behind them. -/
def returnFeeds (text : List Char) : Nat :=
  (text.zip text.tail).count ('\r', '\n')

/-- One more line for characters behind the last line break.  Where there are no characters at all,
a line may go on. -/
def openLine (goesOn : Bool) (text : List Char) : Nat :=
  if (text.getLast?.map fun c => !isLineBreak c).getD goesOn then 1 else 0

section Characters
variable {c : Char} {front back rest : List Char}

theorem returnFeeds_cons (c : Char) (rest : List Char) :
    returnFeeds (c :: rest) =
      returnFeeds rest + if c = '\r' ∧ rest.head? = some '\n' then 1 else 0 := by
  cases rest with
  | nil => simp [returnFeeds]
  | cons next more => simp [returnFeeds, List.count_cons]

theorem returnFeeds_le (text : List Char) : returnFeeds text ≤ text.countP isLineBreak := by
  induction text with
  | nil => exact Nat.le_refl 0
  | cons c rest ih =>
      rw [returnFeeds_cons]
      by_cases pair : c = '\r' ∧ rest.head? = some '\n'
      · have ends : isLineBreak c = true := by rw [pair.1]; rfl
        rw [if_pos pair, List.countP_cons_of_pos ends]
        omega
      · have more : rest.countP isLineBreak ≤ (c :: rest).countP isLineBreak :=
          (List.sublist_cons_self c rest).countP_le
        rw [if_neg pair]
        omega

theorem openLine_cons (goesOn : Bool) (c : Char) (rest : List Char) :
    openLine goesOn (c :: rest) = openLine (!isLineBreak c) rest := by
  rw [openLine, openLine, List.getLast?_cons]
  cases rest.getLast? <;> rfl

/-- The lines of a text from any place on, with its breaks counted one by one. -/
theorem countLines_add_returnFeeds (goesOn : Bool) (text : List Char) :
    countLines goesOn text + returnFeeds text =
      text.countP isLineBreak + openLine goesOn text := by
  fun_induction countLines goesOn text with
  | case1 => rfl
  | case2 goesOn ends => simp [returnFeeds, openLine, ends]
  | case3 => rfl
  | case4 goesOn rest ih =>
      have pair : returnFeeds ('\r' :: '\n' :: rest) = returnFeeds rest + 1 := by
        rw [returnFeeds_cons, returnFeeds_cons]
        simp
      have breaks : ('\r' :: '\n' :: rest).countP isLineBreak = rest.countP isLineBreak + 2 := by
        rw [List.countP_cons_of_pos (by rfl), List.countP_cons_of_pos (by rfl)]
      have last : openLine goesOn ('\r' :: '\n' :: rest) = openLine false rest := by
        rw [openLine_cons, openLine_cons]
        rfl
      omega
  | case5 goesOn c rest _ noFeed ends ih =>
      have alone : returnFeeds (c :: rest) = returnFeeds rest := by
        rw [returnFeeds_cons, if_neg, Nat.add_zero]
        rintro ⟨rfl, feed⟩
        obtain ⟨more, rfl⟩ := List.head?_eq_some_iff.mp feed
        exact noFeed more rfl rfl
      have last : openLine goesOn (c :: rest) = openLine false rest := by
        rw [openLine_cons, ends]
        rfl
      rw [List.countP_cons_of_pos ends]
      omega
  | case6 goesOn c rest _ _ goes ih =>
      have noBreak : isLineBreak c = false := by simpa using goes
      have alone : returnFeeds (c :: rest) = returnFeeds rest := by
        rw [returnFeeds_cons, if_neg, Nat.add_zero]
        rintro ⟨rfl, -⟩
        cases noBreak
      have last : openLine goesOn (c :: rest) = openLine true rest := by
        rw [openLine_cons, noBreak]
        rfl
      rw [List.countP_cons_of_neg goes]
      omega

/-! ## Texts put together -/

theorem returnFeeds_append (front back : List Char) :
    returnFeeds (front ++ back) = returnFeeds front + returnFeeds back +
      if front.getLast? = some '\r' ∧ back.head? = some '\n' then 1 else 0 := by
  induction front with
  | nil => simp [returnFeeds]
  | cons c rest ih =>
      rw [List.cons_append, returnFeeds_cons, returnFeeds_cons, ih]
      cases rest with
      | nil => simp [returnFeeds, Nat.add_comm]
      | cons next more =>
          have head : (next :: more ++ back).head? = (next :: more).head? := rfl
          rw [head, List.getLast?_cons_cons]
          omega

theorem openLine_append (goesOn : Bool) (front : List Char) {back : List Char}
    (filled : back ≠ []) : openLine goesOn (front ++ back) = openLine goesOn back := by
  rw [openLine, openLine, List.getLast?_append, List.getLast?_eq_some_getLast filled]
  rfl

/-- Lines add up where a text is cut behind a line break and not within one. -/
theorem countLines_append {last : Char} (ends : front.getLast? = some last)
    (breaks : isLineBreak last = true) (whole : ¬ (last = '\r' ∧ back.head? = some '\n')) :
    countLines false (front ++ back) = countLines false front + countLines false back := by
  have closed : openLine false front = 0 := by simp [openLine, ends, breaks]
  have split : openLine false (front ++ back) = openLine false back := by
    cases back with
    | nil => rw [List.append_nil, closed]; rfl
    | cons next more => exact openLine_append false front (List.cons_ne_nil next more)
  have pairs : returnFeeds (front ++ back) = returnFeeds front + returnFeeds back := by
    rw [returnFeeds_append, ends, if_neg, Nat.add_zero]
    rintro ⟨same, feed⟩
    exact whole ⟨Option.some.inj same, feed⟩
  have all := countLines_add_returnFeeds false (front ++ back)
  have before := countLines_add_returnFeeds false front
  have behind := countLines_add_returnFeeds false back
  rw [List.countP_append] at all
  omega

/-- Without its return, a line feed still ends its line.  But another return right before them ends
a line only as long as the feed does not follow it. -/
theorem countLines_withoutReturn (front back : List Char) :
    countLines false (front ++ '\r' :: '\n' :: back) =
      countLines false (front ++ '\n' :: back) +
        if front.getLast? = some '\r' then 1 else 0 := by
  have open_eq : openLine false (front ++ '\r' :: '\n' :: back) =
      openLine false (front ++ '\n' :: back) := by
    rw [openLine_append false front (List.cons_ne_nil _ _),
      openLine_append false front (List.cons_ne_nil _ _), openLine_cons, openLine_cons,
      openLine_cons]
  have breaks : ('\r' :: '\n' :: back).countP isLineBreak =
      ('\n' :: back).countP isLineBreak + 1 := List.countP_cons_of_pos (by rfl)
  have pair : returnFeeds ('\r' :: '\n' :: back) = returnFeeds ('\n' :: back) + 1 := by
    rw [returnFeeds_cons, if_pos ⟨rfl, rfl⟩]
  have apart : returnFeeds (front ++ '\r' :: '\n' :: back) =
      returnFeeds front + (returnFeeds ('\n' :: back) + 1) := by
    rw [returnFeeds_append, pair, if_neg (by simp), Nat.add_zero]
  have joined : returnFeeds (front ++ '\n' :: back) = returnFeeds front +
      returnFeeds ('\n' :: back) + if front.getLast? = some '\r' then 1 else 0 := by
    rw [returnFeeds_append]
    simp
  have long := countLines_add_returnFeeds false (front ++ '\r' :: '\n' :: back)
  have short := countLines_add_returnFeeds false (front ++ '\n' :: back)
  rw [List.countP_append] at long short
  omega

end Characters

/-- The lines of a text are its line breaks, less the carriage returns with a line feed behind them,
and one more if characters stand behind the last break.  So the lines of two texts add up if the
first ends in a line break that does not go on in the second; and a carriage return can be left out
before a line feed, unless another one would then have the feed behind it. -/
theorem lines_of_breaks :
    (∀ text : String, returnFeeds text.toList ≤ text.toList.countP isLineBreak ∧
      (TextLength.of text).lines = text.toList.countP isLineBreak - returnFeeds text.toList +
        if text.toList.getLast?.any fun c => !isLineBreak c then 1 else 0) ∧
    (∀ front back : String, ∀ last, front.toList.getLast? = some last → isLineBreak last = true →
      ¬ (last = '\r' ∧ back.toList.head? = some '\n') →
      (TextLength.of (front ++ back)).lines =
        (TextLength.of front).lines + (TextLength.of back).lines) ∧
    ∀ front back : String,
      (TextLength.of (front ++ "\r\n" ++ back)).lines =
        (TextLength.of (front ++ "\n" ++ back)).lines +
          if front.toList.getLast? = some '\r' then 1 else 0 := by
  refine ⟨?_, ?_, ?_⟩
  · intro text
    have total := countLines_add_returnFeeds false text.toList
    have last : openLine false text.toList =
        if text.toList.getLast?.any fun c => !isLineBreak c then 1 else 0 := by
      rw [openLine]
      cases text.toList.getLast? <;> rfl
    have within := returnFeeds_le text.toList
    refine ⟨within, ?_⟩
    rw [← last]
    change countLines false text.toList = _
    omega
  · intro front back last ends breaks whole
    simpa [TextLength.of] using countLines_append ends breaks whole
  · intro front back
    simpa [TextLength.of] using countLines_withoutReturn front.toList back.toList

/-- Returns behind one another, a break of another kind, and a last line without a break. -/
theorem lines_of_mixed_breaks :
    (TextLength.of ("a\r\r\u0085" ++ "\n\rb")).lines = 3 + 3 ∧
      (TextLength.of ("a\r\r\u0085" ++ "\n\rb")).lines =
        (TextLength.of "a\r\r\u0085").lines + (TextLength.of "\n\rb").lines := by
  refine ⟨?_, lines_of_breaks.2.1 _ _ '\u0085' ?_ ?_ ?_⟩
  · decide
  · decide
  · decide
  · decide

/-- The return that is left out was the only thing between another return and the feed. -/
theorem line_lost_behind_return :
    (TextLength.of ("\r" ++ "\r\n" ++ "")).lines ≠
      (TextLength.of ("\r" ++ "\n" ++ "")).lines := by
  decide

end SqlMetrics
