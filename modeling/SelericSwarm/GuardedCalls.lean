import Mathlib.Algebra.Order.Field.Rat
import Mathlib.Data.List.Sort
import SelericSwarm.JsonTexts
import SelericSwarm.RepeatGuard

/-! The tool calls of a mission through `RepeatCallGuard`, with any tools and any arguments. -/
namespace SelericSwarm.Guard
open Keyed Agent

/-- What a dictionary among the arguments is keyed by; numbers come with how they are written. -/
inductive ArgKey where
  | text (s : String)
  | number (value : ℚ) (written : String)
  | none
  | other (id : Nat)
  deriving DecidableEq

/-- An argument as Python has it; an object of any other class comes with what `str` makes of it. -/
inductive Arg where
  | null
  | number (value : ℚ) (written : String)
  | text (s : String)
  | list (items : List Arg)
  | tuple (items : List Arg)
  | dict (entries : List (ArgKey × Arg))
  | object (id : Nat) (str : String)

/-! `==`. -/

def ArgKey.alike : ArgKey → ArgKey → Bool
  | .text s, .text s' => s = s'
  | .number value _, .number value' _ => value = value'
  | .none, .none => true
  | .other id, .other id' => id = id'
  | _, _ => false

mutual

def Arg.alike : Arg → Arg → Bool
  | .null, .null => true
  | .number value _, .number value' _ => value = value'
  | .text s, .text s' => s = s'
  | .list items, .list items' => alikeItems items items'
  | .tuple items, .tuple items' => alikeItems items items'
  | .dict entries, .dict entries' => entries.length = entries'.length && alikeEntries entries entries'
  | .object id _, .object id' _ => id = id'
  | _, _ => false

def alikeItems : List Arg → List Arg → Bool
  | [], [] => true
  | a :: items, a' :: items' => a.alike a' && alikeItems items items'
  | _, _ => false

def alikeEntries : List (ArgKey × Arg) → List (ArgKey × Arg) → Bool
  | [], _ => true
  | (key, a) :: entries, entries' =>
    (entries'.any fun e => key.alike e.1 && a.alike e.2) && alikeEntries entries entries'

end

/-! `json.dumps(args, sort_keys=True, default=str)`; nothing where it raises. -/

def quote (s : String) : String := String.ofList (JsonText.quoted s.toList)

def ArgKey.text? : ArgKey → Option String
  | .text s => some s
  | _ => Option.none

def ArgKey.number? : ArgKey → Option (ℚ × String)
  | .number value written => some (value, written)
  | _ => Option.none

/-- Keys are sorted: texts with texts, numbers with numbers. -/
def sortKeys (rows : List (ArgKey × String)) : Option (List (String × String)) :=
  ((rows.mapM fun r : ArgKey × String => r.1.text?.map fun s => (s, r.2)).map fun rows =>
    rows.insertionSort fun a b => a.1 ≤ b.1) <|>
  ((rows.mapM fun r : ArgKey × String => r.1.number?.map fun n => (n.1, n.2, r.2)).map fun rows =>
    (rows.insertionSort fun a b => a.1 ≤ b.1).map Prod.snd) <|>
  match rows with
  | [(.none, text)] => some [("null", text)]
  | _ => Option.none

mutual

def dumps : Arg → Option String
  | .null => some "null"
  | .number _ written => some written
  | .text s => some (quote s)
  | .list items | .tuple items => (dumpsItems items).map fun texts => "[" ++ ", ".intercalate texts ++ "]"
  | .dict entries => (dumpsEntries entries).bind sortKeys |>.map fun rows =>
    "\x7b" ++ ", ".intercalate (rows.map fun r => quote r.1 ++ ": " ++ r.2) ++ "\x7d"
  | .object _ str => some (quote str)

def dumpsItems : List Arg → Option (List String)
  | [] => some []
  | a :: items => (dumps a).bind fun text => (dumpsItems items).map (text :: ·)

def dumpsEntries : List (ArgKey × Arg) → Option (List (ArgKey × String))
  | [] => some []
  | (key, a) :: entries => (dumps a).bind fun text => (dumpsEntries entries).map ((key, text) :: ·)

end

/-- A call of a tool, whose kind is perhaps not `function`, and what its handler does if it runs. -/
structure ToolCall where
  tool : String
  args : Arg
  function : Bool := true
  outcome : Agent.Execution

/-- A mission as the guard and the tool filter know it; `log` is what the handlers have returned. -/
structure Session where
  missionId : String
  conversational : Bool := false
  liveDataUnavailable : Bool := false
  repeats : Dict String Nat := .empty
  withdrawn : List String := []
  results : Dict (String × String) ToolReturn := .empty
  log : List (ToolCall × ToolReturn) := []

/-- `withdraw_tool`. -/
def Session.withdraw (s : Session) (tool : String) : Session := { s with withdrawn := tool :: s.withdrawn }

/-- `_STILL_AVAILABLE_WITHOUT_LIVE_DATA`. -/
def stillAvailable : List String :=
  ["search_semantics", "get_metric_definition", "get_metric_definitions", "search_knowledge", "predict_ltv",
    "predict_propensity"]

def withdrawDataTools (s : Session) (tools : List String) : List String :=
  if s.conversational then []
  else
    let tools := if s.liveDataUnavailable then tools.filter (· ∈ stillAvailable) else tools
    tools.filter (· ∉ s.withdrawn)

section Guard
-- Python's `repr`
variable (repr : Arg → String)

def argsKey (args : Arg) : String := (dumps args).getD (repr args)

def ToolCall.key (c : ToolCall) : String := c.tool ++ ":" ++ argsKey repr c.args

/-- `wrap_tool_execute`: whether the handler has run, and what the call gives. -/
def Session.call (s : Session) (c : ToolCall) : (Bool × Agent.Execution) × Session :=
  if !c.function then ((true, c.outcome), s)
  else
    let n := s.repeats.getD (c.key repr) 0 + 1
    let s := { s with repeats := s.repeats.set (c.key repr) n }
    let prior := s.results.get? (s.missionId, c.key repr)
    if rerun prior then
      match c.outcome with
      | .returned value =>
        ((true, c.outcome),
          { s with results := s.results.set (s.missionId, c.key repr) value, log := s.log ++ [(c, value)] })
      | _ => ((true, c.outcome), s)
    else
      ((false, .returned (replay c.tool n (prior.getD .null))), if withdrawAfter ≤ n then s.withdraw c.tool else s)

/-- The calls go one after another. -/
def Session.calls (s : Session) (calls : List ToolCall) : Session := calls.foldl (fun s c => (s.call repr c).2) s

end Guard

/-- The same tool with equal arguments. -/
def Same (c c' : ToolCall) : Bool := c.tool = c'.tool && c.args.alike c'.args

def Session.lastReturn (s : Session) (c : ToolCall) : Option ToolReturn :=
  (s.log.filter fun e => Same e.1 c).getLast?.map Prod.snd

/-- A failure that may be tried again. -/
def failedForNow : ToolReturn → Bool
  | .result prior => !prior.success && prior.retryable
  | _ => false

/-- How often such a call has gone through the guard. -/
def times (calls : List ToolCall) (c : ToolCall) : Nat := (calls.filter fun c' => c'.function && Same c' c).length

end SelericSwarm.Guard
