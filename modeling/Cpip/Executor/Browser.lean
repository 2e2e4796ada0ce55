import Cpip.Python.Script

/-!
# Browser automation

The programs that `BrowserRuntime` and `BrowserAgent` send to the sandbox, with a URL, selectors and
values of a request between double quotes.  A program is the script that its template shows if and
only if every one of these texts can stand there as it is (`BrowserAgent.scripts_iff`).
-/

open PyTokens

namespace Browser

/-- The program has the statements of the script. -/
def Parses (env : PyTokens.Env) (program : String) (script : Script) : Prop :=
  tokenize env program = some script.tokens

end Browser

namespace BrowserRuntime

/-- The code of `screenshot`. -/
def screenshot (url : String) : String :=
  "
from playwright.sync_api import sync_playwright\nimport base64
with sync_playwright() as p:
    browser = p.chromium.launch()
    page = browser.new_page()
    page.goto(\"" ++ url ++ "\")
    screenshot = page.screenshot()
    print(base64.b64encode(screenshot).decode())
    browser.close()\n"

/-- The code of `get_html`. -/
def getHtml (url : String) : String :=
  "
from playwright.sync_api import sync_playwright
with sync_playwright() as p:
    browser = p.chromium.launch()
    page = browser.new_page()
    page.goto(\"" ++ url ++ "\")
    print(page.content())
    browser.close()\n"

end BrowserRuntime

namespace BrowserAgent

/-- The line of `field_code` for a selector and its value. -/
def fillLine (field : String × String) : String :=
  "    page.fill(\"" ++ field.1 ++ "\", \"" ++ field.2 ++ "\")"

/-- The script of `fill_form`. -/
def fillForm (url : String) (fields : List (String × String)) : String :=
  "
from playwright.sync_api import sync_playwright
with sync_playwright() as p:
    browser = p.chromium.launch()
    page = browser.new_page()
    page.goto(\"" ++ url ++ "\")\n" ++ "\n".intercalate (fields.map fillLine) ++ "
    print(\"Form filled\")
    browser.close()\n"

end BrowserAgent

/-! ## The templates -/

namespace Browser

open PyTokens.Expr (var text call attr)

/-- What `fill_form` prints at the end. -/
def printLine : Simple := .expr (call (var "print") [text "Form filled"])

/-- The lines before the page is opened, and the closing of the browser at the end. -/
def template (modules : List String) (url : String) (lines : List (Option Simple)) : Script where
  head := none :: some (.fromImport "playwright" "sync_api" "sync_playwright") ::
    modules.map fun n => some (.imports n)
  context := call (var "sync_playwright") []
  target := "p"
  first := .assign "browser" (call (attr (attr (var "p") "chromium") "launch") [])
  body := some (.assign "page" (call (attr (var "browser") "new_page") [])) ::
    some (.expr (call (attr (var "page") "goto") [text url])) ::
      (lines ++ [some (.expr (call (attr (var "browser") "close") []))])

def screenshotScript (url : String) : Script :=
  template ["base64"] url
    [some (.assign "screenshot" (call (attr (var "page") "screenshot") [])),
      some (.expr (call (var "print") [call (attr (call (attr (var "base64") "b64encode")
        [var "screenshot"]) "decode") []]))]

def getHtmlScript (url : String) : Script :=
  template [] url [some (.expr (call (var "print") [call (attr (var "page") "content") []]))]

def fillStatement (field : String × String) : Simple :=
  .expr (call (attr (var "page") "fill") [text field.1, text field.2])

/-- Without fields a line is left empty. -/
def fillLines (fields : List (String × String)) : List (Option Simple) :=
  if fields = [] then [none] else fields.map fun f => some (fillStatement f)

def fillFormScript (url : String) (fields : List (String × String)) : Script :=
  template [] url (fillLines fields ++ [some printLine])

/-! ## The programs are the scripts -/

/-- The pieces of a template before the URL. -/
def opening (modules : List String) : List Piece :=
  (none :: some (.fromImport "playwright" "sync_api" "sync_playwright") ::
      modules.map fun n => some (.imports n)).flatMap (linePieces 0) ++
    [.indent 0, .word "with", .space, .word "sync_playwright", .op '(', .op ')', .space,
      .word "as", .space, .word "p", .op ':', .newline, .indent 4, .word "browser", .space, .op '=',
      .space, .word "p", .op '.', .word "chromium", .op '.', .word "launch", .op '(', .op ')',
      .newline, .indent 4, .word "page", .space, .op '=', .space, .word "browser", .op '.',
      .word "new_page", .op '(', .op ')', .newline, .indent 4, .word "page", .op '.', .word "goto",
      .op '(']

/-- The pieces of a template behind the URL. -/
def closing (lines : List (Option Simple)) : List Piece :=
  .op ')' :: .newline :: (lines.flatMap (linePieces 4) ++
    [.indent 4, .word "browser", .op '.', .word "close", .op '(', .op ')', .newline])

theorem template_pieces (modules : List String) (url : String) (lines : List (Option Simple)) :
    (template modules url lines).pieces = opening modules ++ .text url :: closing lines := by
  simp [template, Script.pieces, opening, closing, linePieces, Simple.pieces, Expr.pieces,
    argPieces]

theorem template_text (modules : List String) (url : String) (lines : List (Option Simple)) :
    String.ofList (written id (template modules url lines).pieces) =
      String.ofList (written id (opening modules) ++ ['"']) ++ url ++
        String.ofList ('"' :: written id (closing lines)) := by
  rw [template_pieces]
  exact ofList_written_text [] (opening modules) (closing lines) url

set_option maxRecDepth 8000 in
theorem screenshot_eq (url : String) : BrowserRuntime.screenshot url =
    String.ofList (written id (screenshotScript url).pieces) := by
  rw [screenshotScript, template_text]
  rfl

set_option maxRecDepth 8000 in
theorem getHtml_eq (url : String) : BrowserRuntime.getHtml url =
    String.ofList (written id (getHtmlScript url).pieces) := by
  rw [getHtmlScript, template_text]
  rfl

theorem glue_line {a b c d A B C : String} (ha : a = A) (hb : b = B) (hc : c ++ d = C)
    (u v : String) : a ++ u ++ b ++ v ++ c ++ d = A ++ u ++ (B ++ v ++ C) := by
  subst ha hb hc
  simp only [String.append_assoc]

theorem fillLine_text (f : String × String) : BrowserAgent.fillLine f ++ "\n" =
    String.ofList (written id (linePieces 4 (some (fillStatement f)))) := by
  have pieces : linePieces 4 (some (fillStatement f)) =
    [.indent 4, .word "page", .op '.', .word "fill", .op '('] ++
      .text f.1 :: ([.op ',', .space] ++ .text f.2 :: [.op ')', .newline]) := rfl
  have opened : "    page.fill(\"" = String.ofList ([] ++ written id
    [.indent 4, .word "page", .op '.', .word "fill", .op '('] ++ ['"']) := rfl
  have between : "\", \"" = String.ofList (['"'] ++ written id [.op ',', .space] ++ ['"']) := rfl
  have closed : "\")" ++ "\n" = String.ofList ('"' :: written id [.op ')', .newline]) := by
    decide
  have selector := ofList_written_text [] [.indent 4, .word "page", .op '.', .word "fill", .op '(']
    ([.op ',', .space] ++ .text f.2 :: [.op ')', .newline]) f.1
  have value := ofList_written_text ['"'] [.op ',', .space] [.op ')', .newline] f.2
  rw [pieces]
  refine (glue_line opened between closed f.1 f.2).trans ?_
  exact (selector.trans (congrArg (_ ++ ·) value)).symm

/-- The lines of `field_code`, with the end of the last one. -/
theorem fillLines_text (fields : List (String × String)) :
    "\n".intercalate (fields.map BrowserAgent.fillLine) ++ "\n" =
      String.ofList (written id ((fillLines fields).flatMap (linePieces 4))) := by
  have lines (f : String × String) (fields : List (String × String)) :
      "\n".intercalate ((f :: fields).map BrowserAgent.fillLine) ++ "\n" =
        String.ofList (written id ((f :: fields).flatMap fun f =>
          linePieces 4 (some (fillStatement f)))) := by
    induction fields generalizing f with
    | nil =>
      rw [List.map_singleton, String.intercalate_singleton, fillLine_text, List.flatMap_singleton]
    | cons f' fields ih =>
      rw [List.map_cons, List.map_cons, String.intercalate_cons_cons, String.append_assoc,
        ← List.map_cons, ih f', fillLine_text, ← String.ofList_append, ← written_append]
      rfl
  cases fields with
  | nil => rfl
  | cons f fields =>
    rw [lines, fillLines, if_neg (List.cons_ne_nil _ _), List.flatMap_map]

theorem glue_form {a b c nl j A B C J : String} (ha : a = A) (hb : b = B) (hc : c = nl ++ C)
    (hj : j ++ nl = J) (u : String) :
    a ++ u ++ b ++ j ++ c = A ++ u ++ (B ++ (J ++ C)) := by
  subst ha hb hc hj
  simp only [String.append_assoc]

set_option maxRecDepth 8000 in
theorem fillForm_eq (url : String) (fields : List (String × String)) :
    BrowserAgent.fillForm url fields =
      String.ofList (written id (fillFormScript url fields).pieces) := by
  let last : List Piece := linePieces 4 (some printLine) ++
    [.indent 4, .word "browser", .op '.', .word "close", .op '(', .op ')', .newline]
  have lines : '"' :: written id (closing (fillLines fields ++ [some printLine])) =
      ['"', ')', '\n'] ++ (written id ((fillLines fields).flatMap (linePieces 4)) ++
        written id last) := by
    simp [closing, written, Piece.write, last]
  have opened : "
from playwright.sync_api import sync_playwright
with sync_playwright() as p:
    browser = p.chromium.launch()
    page = browser.new_page()
    page.goto(\"" = String.ofList (written id (opening []) ++ ['"']) := rfl
  have closed : "\")\n" = String.ofList ['"', ')', '\n'] := rfl
  have ended : "
    print(\"Form filled\")
    browser.close()\n" = String.ofList (['\n'] ++ written id last) := rfl
  rw [fillFormScript, template_text, lines, @String.ofList_append ['"', ')', '\n'],
    @String.ofList_append (written id ((fillLines fields).flatMap _))]
  exact glue_form opened closed (ended.trans String.ofList_append) (fillLines_text fields) url

/-! ## What the templates take -/

theorem template_named {modules : List String} {lines : List (Option Simple)} (url : String)
    (imported : ∀ n ∈ modules, isName n) (named : ∀ line ∈ lines, line.all Simple.named) :
    (template modules url lines).named := by
  have names : ["playwright", "sync_api", "sync_playwright", "p", "browser", "chromium", "launch",
    "page", "new_page", "goto", "close"].all isName := by decide +kernel
  simp only [List.all_cons, List.all_nil, Bool.and_eq_true, and_true] at names
  have lines := And.intro imported named
  simpa [template, Script.named, Simple.named, Expr.named, argsNamed, Expr.isText, names] using
    lines

theorem template_texts (modules : List String) (url : String) (lines : List (Option Simple)) :
    (∀ u, Piece.text u ∈ (template modules url lines).pieces → Quotable u) ↔
      Quotable url ∧ ∀ u, Piece.text u ∈ lines.flatMap (linePieces 4) → Quotable u := by
  have none (u : String) : Piece.text u ∉ opening modules := by
    simp [opening, linePieces, Simple.pieces]
  simp [template_pieces, closing, none]

theorem parses_template_iff (env : PyTokens.Env) {modules : List String}
    {lines : List (Option Simple)} (url : String) (imported : ∀ n ∈ modules, isName n)
    (named : ∀ line ∈ lines, line.all Simple.named) :
    Parses env (String.ofList (written id (template modules url lines).pieces))
        (template modules url lines) ↔
      Quotable url ∧ ∀ u, Piece.text u ∈ lines.flatMap (linePieces 4) → Quotable u := by
  rw [Parses, Script.tokenize_iff env (template_named url imported named), template_texts]

theorem parses_screenshot_iff (env : PyTokens.Env) (url : String) :
    Parses env (BrowserRuntime.screenshot url) (screenshotScript url) ↔ Quotable url := by
  rw [screenshot_eq]
  refine (parses_template_iff env url (by decide +kernel) (by decide +kernel)).trans ?_
  simp [linePieces, Simple.pieces, Expr.pieces, argPieces]

theorem parses_getHtml_iff (env : PyTokens.Env) (url : String) :
    Parses env (BrowserRuntime.getHtml url) (getHtmlScript url) ↔ Quotable url := by
  rw [getHtml_eq]
  refine (parses_template_iff env url (by decide +kernel) (by decide +kernel)).trans ?_
  simp [linePieces, Simple.pieces, Expr.pieces, argPieces]

theorem text_mem_fillLines_iff (fields : List (String × String)) (u : String) :
    Piece.text u ∈ (fillLines fields).flatMap (linePieces 4) ↔
      ∃ f ∈ fields, u = f.1 ∨ u = f.2 := by
  have line (f : String × String) :
      Piece.text u ∈ linePieces 4 (some (fillStatement f)) ↔ u = f.1 ∨ u = f.2 := by
    simp [linePieces, fillStatement, Simple.pieces, Expr.pieces, argPieces]
  unfold fillLines
  split_ifs with empty
  · simp [empty, linePieces]
  · simp only [List.mem_flatMap, List.mem_map]
    constructor
    · rintro ⟨_, ⟨f, mem, rfl⟩, hu⟩
      exact ⟨f, mem, (line f).1 hu⟩
    · rintro ⟨f, mem, hu⟩
      exact ⟨_, ⟨f, mem, rfl⟩, (line f).2 hu⟩

theorem parses_fillForm_iff (env : PyTokens.Env) (url : String) (fields : List (String × String)) :
    Parses env (BrowserAgent.fillForm url fields) (fillFormScript url fields) ↔
      Quotable url ∧ ∀ f ∈ fields, Quotable f.1 ∧ Quotable f.2 := by
  have printed : Quotable "Form filled" := by decide +kernel
  have words : isName "page" ∧ isName "fill" ∧ printLine.named := by decide +kernel
  have lines : ∀ line ∈ fillLines fields ++ [some printLine], line.all Simple.named := by
    intro line mem
    rcases List.mem_append.1 mem with mem | mem
    · unfold fillLines at mem
      split_ifs at mem
      · rw [List.mem_singleton.1 mem]
        rfl
      · obtain ⟨f, -, rfl⟩ := List.mem_map.1 mem
        simp [fillStatement, Simple.named, Expr.named, argsNamed, Expr.isText, words]
    · rw [List.mem_singleton.1 mem]
      exact words.2.2
  rw [fillForm_eq]
  refine (parses_template_iff env url (by simp) lines).trans (and_congr_right' ?_)
  have print (u : String) : Piece.text u ∈ linePieces 4 (some printLine) ↔ u = "Form filled" := by
    simp [printLine, linePieces, Simple.pieces, Expr.pieces, argPieces]
  simp only [List.flatMap_append, List.mem_append, List.flatMap_singleton, text_mem_fillLines_iff,
    print]
  constructor
  · intro all f mem
    exact ⟨all f.1 (.inl ⟨f, mem, .inl rfl⟩), all f.2 (.inl ⟨f, mem, .inr rfl⟩)⟩
  · rintro all u (⟨f, mem, rfl | rfl⟩ | rfl)
    · exact (all f mem).1
    · exact (all f mem).2
    · exact printed

end Browser

namespace BrowserAgent

open Browser
open PyTokens.Expr (var text call attr)

/-- A program is the script of its template if and only if every text can stand between double
quotes as it is. -/
theorem scripts_iff (env : PyTokens.Env) (url : String) (fields : List (String × String)) :
    (Parses env (BrowserRuntime.screenshot url) (screenshotScript url) ↔ Quotable url) ∧
      (Parses env (BrowserRuntime.getHtml url) (getHtmlScript url) ↔ Quotable url) ∧
      (Parses env (fillForm url fields) (fillFormScript url fields) ↔
        Quotable url ∧ ∀ f ∈ fields, Quotable f.1 ∧ Quotable f.2) :=
  ⟨parses_screenshot_iff env url, parses_getHtml_iff env url, parses_fillForm_iff env url fields⟩

set_option maxRecDepth 8000 in
/-- A URL that closes the literal and goes on in a line of its own adds a statement. -/
theorem statement_added :
    (∀ env, Parses env (BrowserRuntime.getHtml "x\")\n    print(\"y")
      (template [] "x" [some (.expr (call (var "print") [text "y"])),
        some (.expr (call (var "print") [call (attr (var "page") "content") []]))])) ∧
    ¬ ∃ env, Parses env (BrowserRuntime.getHtml "x\")\n    print(\"y")
      (getHtmlScript "x\")\n    print(\"y") := by
  constructor
  · intro env
    have made : BrowserRuntime.getHtml "x\")\n    print(\"y" = String.ofList (written id
      (template [] "x" [some (.expr (call (var "print") [text "y"])),
        some (.expr (call (var "print") [call (attr (var "page") "content") []]))]).pieces) := by
      rfl
    rw [made, parses_template_iff env "x" (by simp) (by decide +kernel)]
    refine ⟨by decide +kernel, ?_⟩
    simp [linePieces, Simple.pieces, Expr.pieces, argPieces]
    decide +kernel
  · rintro ⟨env, h⟩
    rw [parses_getHtml_iff] at h
    exact absurd h (by decide +kernel)

end BrowserAgent
