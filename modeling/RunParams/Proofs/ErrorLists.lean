import RunParams.Proofs.Rendering
import RunParams.Tool.Run

/-!
# Lists of errors on the console

A list of errors is printed with markup, in which the messages are escaped. What a console makes of it is known by three laws:
every message gets one entry below a heading, the notice of a fault gets one line, and a message keeps its line ends. The laws
hold of the console that reads markup, whatever its pictures are, as long as these have no line ends.
-/

namespace RunParams.Console

/-! ## What a console shows -/

/-- How a console shows text in red, and a message that is an entry of a list of errors. -/
structure Look where
  red : String → String
  entry : String → String

/-- A list of errors as it is shown with marks in red: an entry to a line below a heading. -/
def errorText (red : String → String) (entries : List String) : String :=
  let heading := red "Parameter Errors:"
  let mark := red "✗"
  s!" {heading}\n" ++ String.join (entries.map fun e => s!"  {mark} {e}\n")

/-- What is asked of a console that shows errors. -/
structure Renderer.Lawful (r : Renderer) (look : Look) : Prop where
  /-- A list of escaped messages is shown with every message in it, and no message has a part in what is shown of another. -/
  errorList : ∀ messages, messages ≠ [] → r.print [.markup "", .markup (errorList true (messages.map r.escape))] =
    .ok (errorText look.red (messages.map look.entry))
  /-- The notice of a fault is shown on one line. -/
  crashNotice : ∃ line, '\n' ∉ line.toList ∧ r.print [.markup "", .markup Tool.crashNotice] = .ok (line ++ "\n")
  /-- A message keeps its line ends. -/
  lineEnds : ∀ message, (look.entry message).toList.count '\n' = message.toList.count '\n'

/-- The characters of an entry with its mark, up to the line end. -/
def entryLine (red : String → String) (entry : String) : List Char :=
  ' ' :: ' ' :: ((red "✗").toList ++ ' ' :: entry.toList)

theorem toList_errorText (red : String → String) (entries : List String) :
    (errorText red entries).toList =
      ' ' :: (red "Parameter Errors:").toList ++ '\n' :: entries.flatMap fun e => entryLine red e ++ ['\n'] := by
  simp [errorText, entryLine, toString, List.flatMap_map]

/-- A list of errors has a line for the heading, and at least one more. -/
theorem two_le_count_errorText (red : String → String) {entries : List String} (h : entries ≠ []) :
    2 ≤ (errorText red entries).toList.count '\n' := by
  obtain ⟨e, entries, rfl⟩ := List.exists_cons_of_ne_nil h
  rw [toList_errorText, List.flatMap_cons, List.count_append, List.count_cons_self, List.count_append, List.count_append,
    List.count_singleton_self]
  omega

/-- Texts with as many line ends are told from what follows them on the next line. -/
theorem append_newline_inj {s t x y : List Char} (hcount : s.count '\n' = t.count '\n') (h : s ++ '\n' :: x = t ++ '\n' :: y) :
    s = t ∧ x = y := by
  induction s generalizing t with
  | nil =>
    cases t with
    | nil => exact ⟨rfl, (List.cons.inj h).2⟩
    | cons d t =>
      obtain ⟨rfl, -⟩ := List.cons.inj h
      simp at hcount
  | cons c s ih =>
    cases t with
    | nil =>
      obtain ⟨rfl, -⟩ := List.cons.inj h
      simp at hcount
    | cons d t =>
      obtain ⟨rfl, hrest⟩ := List.cons.inj h
      obtain ⟨hst, hxy⟩ := ih (by simpa [List.count_cons] using hcount) hrest
      exact ⟨congrArg (List.cons c) hst, hxy⟩

/-- Entries that are exchanged for others with as many line ends make the same list only if each is exchanged for itself. -/
theorem errorText_map_eq_iff {red f : String → String} (hlines : ∀ e, (f e).toList.count '\n' = e.toList.count '\n')
    (entries : List String) : errorText red (entries.map f) = errorText red entries ↔ ∀ e ∈ entries, f e = e := by
  constructor
  · intro h
    have hchars := congrArg String.toList h
    rw [toList_errorText, toList_errorText, List.append_cancel_left_eq, List.cons.injEq] at hchars
    obtain ⟨-, hentries⟩ := hchars
    clear h
    induction entries with
    | nil => simp
    | cons e entries ih =>
      have hcount : (entryLine red (f e)).count '\n' = (entryLine red e).count '\n' := by
        simp [entryLine, hlines]
      rw [List.map_cons, List.flatMap_cons, List.flatMap_cons, List.append_assoc, List.append_assoc] at hentries
      obtain ⟨hline, hrest⟩ := append_newline_inj hcount hentries
      have he : f e = e := by simpa [entryLine, String.toList_inj] using hline
      exact List.forall_mem_cons.mpr ⟨he, ih hrest⟩
  · intro h
    rw [List.map_congr_left h, List.map_id']

/-! ## The console that reads markup -/

variable {pics : Pictures}

/-- Tabs before a line end do not matter behind it. -/
theorem expandTabs_append (column : Nat) (s t : List Char) :
    expandTabs column (s ++ '\n' :: t) = expandTabs column s ++ '\n' :: expandTabs 0 t := by
  fun_induction expandTabs column s with
  | case1 column =>
    rw [List.nil_append, expandTabs, if_neg (by decide), if_pos rfl]
    rfl
  | case2 column s spaces ih =>
    rw [List.cons_append, expandTabs, if_pos rfl, List.append_assoc, ← ih]
  | case3 column c s hc ih => rw [List.cons_append, expandTabs, if_neg hc, ih, List.cons_append]

/-- Tabs are no line ends, and neither is what stands in their places. -/
theorem count_expandTabs (column : Nat) (s : List Char) : (expandTabs column s).count '\n' = s.count '\n' := by
  fun_induction expandTabs column s with
  | case1 => rfl
  | case2 column s spaces ih => simp [List.count_replicate, ih]
  | case3 column c s hc ih => simp [List.count_cons, ih]

theorem expandTabs_eq_self {s : List Char} (h : '\t' ∉ s) (column : Nat) : expandTabs column s = s := by
  fun_induction expandTabs column s with
  | case1 => rfl
  | case2 => simp at h
  | case3 column c s hc ih => rw [ih fun hs => h (List.mem_cons_of_mem c hs)]

/-- What the list of errors shows of a message: the message is escaped, and its tabs are replaced behind a mark of four
columns. -/
def entryText (pics : Pictures) (message : String) : String :=
  String.ofList (expandTabs 4 (shown pics message).toList)

/-- A message keeps its line ends in the list of errors. -/
theorem count_entryText (h : pics.OnLine) (message : String) :
    (entryText pics message).toList.count '\n' = message.toList.count '\n' := by
  rw [entryText, String.toList_ofList, count_expandTabs, count_shown h]

/-- The style of the marks. -/
def red : List Char := ['r', 'e', 'd']

/-- The mark before an entry, with markup. -/
def mark : String :=
  styled (some "red") "✗"

/-- A marked-up entry of the list, on a line of its own. -/
def markedEntry (message : String) : List Char :=
  ['\n', ' ', ' '] ++ ('[' :: red ++ ']' :: '✗' :: ('[' :: '/' :: red ++ ']' :: ' ' :: (escape message).toList))

/-- An entry as it is shown, before its tabs are replaced. -/
def shownEntry (pics : Pictures) (message : String) : List Char :=
  ['\n', ' ', ' '] ++ '✗' :: ' ' :: (shown pics message).toList

/-- The heading of the list. -/
def heading : List Char :=
  "Parameter Errors:".toList

theorem toList_styled_red (text : String) :
    (styled (some "red") text).toList = '[' :: red ++ ']' :: (text.toList ++ ('[' :: '/' :: red ++ [']'])) := by
  simp [styled, toString, red]

theorem toList_entry (message : String) : ("\n" ++ s!"  {mark} {escape message}").toList = markedEntry message := by
  simp [mark, toList_styled_red, markedEntry, toString]

/-- The entries follow the heading, or whatever comes first. -/
theorem toList_intercalate_entries (first : String) (messages : List String) :
    ("\n".intercalate (first :: (messages.map escape).map fun e => s!"  {mark} {e}")).toList =
      first.toList ++ messages.flatMap markedEntry := by
  induction messages generalizing first with
  | nil => simp
  | cons message messages ih =>
    rw [List.map_cons, List.map_cons, String.intercalate_cons_cons, String.toList_append, ih, List.flatMap_cons,
      ← toList_entry]
    simp only [String.toList_append, List.append_assoc]

theorem toList_errorList {messages : List String} (h : messages ≠ []) :
    (errorList true (messages.map escape)).toList =
      '[' :: red ++ ']' :: (heading ++ ('[' :: '/' :: red ++ ']' :: messages.flatMap markedEntry)) := by
  have hheading : (styled (some "red") "Parameter Errors:").toList =
      '[' :: red ++ ']' :: (heading ++ ('[' :: '/' :: red ++ [']'])) := toList_styled_red _
  have hne : (messages.map escape).isEmpty = false := by simpa using h
  rw [errorList]
  simp only [hne, if_true, Bool.false_eq_true, if_false]
  refine (toList_intercalate_entries _ messages).trans ?_
  rw [hheading]
  simp

theorem isTag_red : IsTag red ∧ IsTag ('/' :: red) :=
  ⟨⟨'r', ['e', 'd'], rfl, by decide, by simp⟩, ⟨'/', red, rfl, by decide, by simp [red]⟩⟩

/-- The name of a style in its normal form, which is no closing tag and has no value. -/
structure IsStyle (name : List Char) : Prop where
  ne_nil : name ≠ []
  opens : name.head? ≠ some '/'
  tagName_eq : tagName name = name
  trim_eq : Text.trim Text.isBlank name = name
  normalName_eq : normalName name = name

/-- Text in a style is shown as it is. -/
theorem IsStyle.shows {name : List Char} (h : IsStyle name) (s : List Char) :
    Shows pics [.tag 0 name, .plain s, .tag 0 ('/' :: name)] (showPlain pics (openBrackets s)) := by
  have hclose : tagName ('/' :: name) = '/' :: name := congrArg (List.cons '/') h.tagName_eq
  refine shows_styled (fun position => ?_) (fun position => ?_) s
  · obtain ⟨c, rest, rfl⟩ := List.exists_cons_of_ne_nil h.ne_nil
    have hc : c ≠ '/' := fun e => h.opens (congrArg some e)
    simp [applyTag, h.tagName_eq, h.normalName_eq, hc]
  · simp [applyTag, hclose, h.trim_eq, h.normalName_eq, h.ne_nil]

theorem isStyle_red : IsStyle red :=
  ⟨by decide, by decide, by decide, by decide, by decide⟩

theorem parts_markedEntry (message : String) (t : List Char) :
    parts 0 0 (markedEntry message ++ t) = .plain ['\n', ' ', ' '] :: .tag 0 red :: .plain ['✗'] :: .tag 0 ('/' :: red) ::
      consPlain ' ' (parts 0 0 ((escape message).toList ++ t)) := by
  have htext : markedEntry message ++ t = ['\n', ' ', ' '] ++
      ('[' :: red ++ ']' :: (['✗'] ++ ('[' :: ('/' :: red) ++ ']' :: ([' '] ++ ((escape message).toList ++ t))))) := by
    simp [markedEntry]
  generalize (escape message).toList ++ t = x at htext ⊢
  rw [htext, parts_of_plain (by decide), parts_tag isTag_red.1, parts_of_plain (by decide), parts_tag isTag_red.2,
    parts_of_plain (by decide)]
  rfl

/-- The entries of the list may follow one another, and are shown one by one. -/
theorem follows_entries (messages : List String) :
    Follows pics (messages.flatMap markedEntry) (messages.flatMap (shownEntry pics)) := by
  induction messages with
  | nil => exact follows_nil
  | cons message messages ih =>
    rw [List.flatMap_cons, List.flatMap_cons]
    constructor
    · rw [markedEntry, List.append_assoc]
      exact separate_append_open (by decide) _
    · exact joins_cons (by decide) rfl
    · have hlead : showPlain pics (openBrackets ['\n', ' ', ' ']) = ['\n', ' ', ' '] := rfl
      have hmark : showPlain pics (openBrackets ['✗']) = ['✗'] := rfl
      have hmarked := (@shows_plain pics ['\n', ' ', ' ']).append (isStyle_red.shows ['✗'])
      have hentry := hmarked.append (shows_escape_append message ih).space
      rw [hlead, hmark] at hentry
      rw [parts_markedEntry]
      simpa [shownEntry] using hentry
    · exact .inr ⟨'\n', _, _, by decide, parts_markedEntry message _⟩

theorem render_errorList {messages : List String} (h : messages ≠ []) :
    render pics (errorList true (messages.map escape)).toList = .ok (heading ++ messages.flatMap (shownEntry pics)) := by
  have hheading : showPlain pics (openBrackets heading) = heading := rfl
  have hparts : parts 0 0 (errorList true (messages.map escape)).toList =
      [.tag 0 red, .plain heading, .tag 0 ('/' :: red)] ++ parts 0 0 (messages.flatMap markedEntry) := by
    rw [toList_errorList h, parts_tag isTag_red.1, parts_of_plain (by decide), parts_tag isTag_red.2, foldr_consPlain,
      foldr_consPlain_nil (by decide)]
    rfl
  have hbracket : (errorList true (messages.map escape)).toList.contains '[' = true := by
    rw [toList_errorList h]
    simp
  have hshows := ((@IsStyle.shows pics red isStyle_red heading).append (follows_entries messages).shows).render 0
  rw [hheading] at hshows
  rw [render, if_pos hbracket, hparts, hshows]

theorem expandTabs_entries (column : Nat) (s : List Char) (messages : List String) :
    expandTabs column (s ++ messages.flatMap (shownEntry pics)) ++ ['\n'] =
      expandTabs column s ++ '\n' :: (messages.map (entryText pics)).flatMap fun e => entryLine (fun t => t) e ++ ['\n'] := by
  induction messages generalizing column s with
  | nil => simp
  | cons message messages ih =>
    have hshown : shownEntry pics message = '\n' :: ([' ', ' ', '✗', ' '] ++ (shown pics message).toList) := rfl
    have hcolumns : ∀ x, expandTabs 0 ([' ', ' ', '✗', ' '] ++ x) = [' ', ' ', '✗', ' '] ++ expandTabs 4 x := fun _ => rfl
    have hmark : "✗".toList = ['✗'] := by decide
    have hline : entryLine (fun t => t) (entryText pics message) =
        [' ', ' ', '✗', ' '] ++ expandTabs 4 (shown pics message).toList := by
      simp only [entryLine, entryText, String.toList_ofList, hmark, List.cons_append, List.nil_append]
    rw [List.flatMap_cons, hshown, List.cons_append, expandTabs_append, List.append_assoc, List.cons_append, ih, hcolumns,
      List.map_cons, List.flatMap_cons, hline]
    simp only [List.append_assoc, List.cons_append, List.nil_append]

/-- The style of the notice of a fault. -/
def boldRed : List Char :=
  "bold red".toList

theorem isStyle_boldRed : IsStyle boldRed :=
  ⟨by decide +kernel, by decide +kernel, by decide +kernel, by decide +kernel, by decide +kernel⟩

/-- What the notice of a fault says behind its first word. -/
def noticeText : List Char :=
  ": An unexpected exception occurred.".toList

theorem render_crashNotice : render pics Tool.crashNotice.toList = .ok ("Error".toList ++ noticeText) := by
  have hparts : parts 0 0 Tool.crashNotice.toList =
      [.tag 0 boldRed, .plain "Error".toList, .tag 0 ('/' :: boldRed)] ++ [.plain noticeText] := by
    decide +kernel
  have hword : showPlain pics (openBrackets "Error".toList) = "Error".toList := rfl
  have htext : showPlain pics (openBrackets noticeText) = noticeText := rfl
  have hbracket : Tool.crashNotice.toList.contains '[' = true := by decide +kernel
  have hshows := ((isStyle_boldRed.shows "Error".toList).append (@shows_plain pics noticeText)).render 0
  rw [hword, htext] at hshows
  rw [render, if_pos hbracket, hparts, hshows]

/-- One marked-up text is printed behind a space. -/
theorem print_markup {text : String} {x : List Char} (h : render pics text.toList = .ok x) :
    (markup pics).print [.markup "", .markup text] = .ok (String.ofList (expandTabs 0 (' ' :: x) ++ ['\n'])) := by
  have hempty : render pics "".toList = .ok [] := rfl
  have hbehind : [' '].intercalate [[], x] = ' ' :: x := by simp [List.intercalate]
  have hcompose : compose pics [.markup "", .markup text] = .ok (String.ofList (expandTabs 0 (' ' :: x) ++ ['\n'])) := by
    rw [compose, List.mapM_cons, Item.render, hempty, List.mapM_cons, Item.render, h, List.mapM_nil]
    exact congrArg (fun s => Except.ok (String.ofList (expandTabs 0 s ++ ['\n']))) hbehind
  exact congrArg (Except.mapError _) hcompose

/-- The console that reads markup obeys the laws. Its red text looks as any other, and its entries are messages as they are
shown. -/
theorem markup_lawful (h : pics.OnLine) : (markup pics).Lawful ⟨fun t => t, entryText pics⟩ where
  errorList messages hne := by
    have hheading : expandTabs 0 (' ' :: heading) = ' ' :: heading := expandTabs_eq_self (by decide) 0
    have hexpand := @expandTabs_entries pics 0 (' ' :: heading) messages
    rw [hheading] at hexpand
    have htext : expandTabs 0 (' ' :: (heading ++ messages.flatMap (shownEntry pics))) ++ ['\n'] =
        (errorText (fun t => t) (messages.map (entryText pics))).toList := by
      rw [toList_errorText]
      exact hexpand
    have hprint := print_markup (@render_errorList pics messages hne)
    rw [htext, String.ofList_toList] at hprint
    exact hprint
  crashNotice := by
    have hline : expandTabs 0 (' ' :: ("Error".toList ++ noticeText)) = ' ' :: ("Error".toList ++ noticeText) :=
      expandTabs_eq_self (by decide +kernel) 0
    refine ⟨String.ofList (' ' :: ("Error".toList ++ noticeText)), by decide +kernel, ?_⟩
    rw [print_markup render_crashNotice, hline, String.ofList_append]
  lineEnds := count_entryText h

end RunParams.Console
