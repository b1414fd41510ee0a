import ServingSystem.TokenPipeline

/-!
# The Python side of a replica

`ReplicaManager`: its constructor, which goes on without an engine when
building one has raised, and `generate_stream`, which puts the generated
pieces, an error text and the end sentinel on its callback. What the engine
does comes from the environment.
-/

set_option autoImplicit false

namespace ServingSystem.ReplicaManager
open StateExcept TokenPipeline

/-- What was raised: an `Exception` or only a `BaseException`, and its text
unless `str` of it raises. -/
structure Raised where
  isException : Bool
  message : Option (List Char)
  deriving DecidableEq, Repr

/-- How a call of `engine.generate` and the iteration over its result go: the
call raises, or the texts of the first outputs, `none` where `outputs` is
empty, and what ends the iteration. -/
inductive Generation where
  | raises (e : Raised)
  | yields (outputs : List (Option (List Char))) (ending : Option Raised)
  deriving DecidableEq, Repr

structure SamplingParams where
  maxTokens : ℕ
  temperature : ℚ
  topP : Option ℚ
  stop : Option (List String)
  includeStopStrInOutput : Option Bool
  deriving DecidableEq, Repr

abbrev Engine := List Char → SamplingParams → String → Generation

def samplingParams : SamplingParams where
  maxTokens := 500
  temperature := 7/10
  topP := none
  stop := none
  includeStopStrInOutput := none

structure Manager where
  deploymentName : String
  deploymentId : ℤ
  metricsPort : ℤ
  modelId : String
  engine : Option Engine

def modelConfigs : List (String × String) :=
  [("/v1/chat/gpt2", "gpt2"),
    ("/v1/chat/llama2", "meta-llama/Llama-2-7b-chat-hf"),
    ("/v1/chat/mistral", "mistralai/Mistral-7B-Instruct-v0.1"),
    ("/v1/code/codellama", "codellama/CodeLlama-7b-Python-hf"),
    ("/v1/chat/phi2", "microsoft/phi-2"),
    ("/v1/chat/tinyllama", "TinyLlama/TinyLlama-1.1B-Chat-v1.0")]

def exception (message : String) : Raised := ⟨true, some message.toList⟩

def initModel (deploymentName : String) (fromEngineArgs : String → Except Raised Engine) :
    Except Raised (String × Option Engine) :=
  match modelConfigs.lookup deploymentName with
  | none => .error (exception ("'" ++ deploymentName ++ "'"))
  | some modelId =>
    match fromEngineArgs modelId with
    | .ok engine => .ok (modelId, some engine)
    | .error e => if e.isException then .ok (modelId, none) else .error e

def create (deploymentName : String) (deploymentId metricsPort : ℤ)
    (fromEngineArgs : String → Except Raised Engine) (startHttpServer : Except Raised Unit) :
    Except Raised Manager :=
  match initModel deploymentName fromEngineArgs with
  | .error e => .error e
  | .ok (modelId, engine) =>
    match startHttpServer with
    | .error e => .error e
    | .ok _ => .ok ⟨deploymentName, deploymentId, metricsPort, modelId, engine⟩

inductive Metric where
  | firstTokenLatency (deploymentName : String)
  | interTokenLatency (deploymentName : String)
  | requestLatency (deploymentName : String)
  | requestCount (deploymentName status : String)
  deriving DecidableEq, Repr

/-- The items put on the callback, the sentinel being `none`, with the local
variables and the metrics. -/
structure Stream where
  items : List (Option (List Char))
  sentPosition : ℕ
  firstTokenReceived : Bool
  lastTokenReceived : Bool
  metrics : List Metric
  deriving DecidableEq, Repr

def fresh : Stream := ⟨[], 0, false, false, []⟩

def observe (metric : Metric) : EStateM Raised Stream Unit :=
  modify (fun s => { s with metrics := s.metrics ++ [metric] })

def put (item : Option (List Char)) : EStateM Raised Stream Unit :=
  modify (fun s => { s with items := s.items ++ [item] })

def observeFirstToken (deploymentName : String) : EStateM Raised Stream Unit := do
  if !(← get).firstTokenReceived then
    modify (fun s => { s with firstTokenReceived := true })
    observe (.firstTokenLatency deploymentName)

def observeInterToken (deploymentName : String) : EStateM Raised Stream Unit := do
  if (← get).lastTokenReceived then
    observe (.interTokenLatency deploymentName)
  modify (fun s => { s with lastTokenReceived := true })

def putNew (deploymentName : String) (currentText : List Char) : EStateM Raised Stream Unit := do
  let newText := currentText.drop (← get).sentPosition
  if newText ≠ [] then
    observeFirstToken deploymentName
    put (some newText)
    modify (fun s => { s with sentPosition := currentText.length })
    observeInterToken deploymentName

def iterate (deploymentName : String) : List (Option (List Char)) → EStateM Raised Stream Unit
  | [] => pure ()
  | none::_ => throw (exception "list index out of range")
  | some currentText::rest => do
    putNew deploymentName currentText
    iterate deploymentName rest

def tryBlock (deploymentName : String) (outputs : List (Option (List Char)))
    (ending : Option Raised) : EStateM Raised Stream Unit := do
  iterate deploymentName outputs
  match ending with
  | some e => throw e
  | none =>
    observe (.requestLatency deploymentName)
    observe (.requestCount deploymentName "success")

def exceptBlock (deploymentName : String) (e : Raised) : EStateM Raised Stream Unit := do
  if !e.isException then
    throw e
  match e.message with
  | none => throw ⟨true, none⟩
  | some message =>
    put (some (errorMark ++ ' '::message))
    observe (.requestCount deploymentName "error")

def generateStream (m : Manager) (prompt : List Char) (requestId : String) :
    EStateM Raised Stream Unit := do
  match m.engine with
  | none => throw (exception "'ReplicaManager' object has no attribute 'engine'")
  | some engine =>
    match engine prompt samplingParams requestId with
    | .raises e => throw e
    | .yields outputs ending =>
      finallyDo (tryCatch (tryBlock m.deploymentName outputs ending)
        (exceptBlock m.deploymentName)) (put none)

def produced (m : Manager) (prompt : List Char) (requestId : String) :
    List (Option (List Char)) :=
  (finalState (generateStream m prompt requestId fresh)).items

def Puts (s t : Stream) : Prop := ∃ texts : List (List Char), t.items = s.items ++ texts.map some

theorem puts_of_eq {s t : Stream} (h : t.items = s.items) : Puts s t :=
  ⟨[], by rw [h, List.map_nil, List.append_nil]⟩

instance : Std.Refl Puts := ⟨fun _ => puts_of_eq rfl⟩

instance : IsTrans Stream Puts where
  trans := by
    rintro s t u ⟨a, ha⟩ ⟨b, hb⟩
    exact ⟨a ++ b, by rw [hb, ha, List.map_append, List.append_assoc]⟩

theorem observe_puts (metric : Metric) : Leads Puts (observe metric) :=
  leads_modify (fun _ => puts_of_eq rfl)

theorem put_puts (text : List Char) : Leads Puts (put (some text)) :=
  leads_modify (fun _ => ⟨[text], rfl⟩)

theorem observeFirstToken_puts (name : String) : Leads Puts (observeFirstToken name) := by
  refine leads_bind leads_get (fun s => ?_)
  split
  · exact leads_bind (leads_modify (fun _ => puts_of_eq rfl)) (fun _ => observe_puts _)
  · exact leads_pure _

theorem observeInterToken_puts (name : String) : Leads Puts (observeInterToken name) := by
  have hm : Leads Puts (modify (fun s : Stream => { s with lastTokenReceived := true })
      : EStateM Raised Stream Unit) := leads_modify (fun _ => puts_of_eq rfl)
  refine leads_bind leads_get (fun s => ?_)
  split
  · exact leads_bind (observe_puts _) (fun _ => hm)
  · exact hm

theorem putNew_puts (name : String) (currentText : List Char) :
    Leads Puts (putNew name currentText) := by
  refine leads_bind leads_get (fun s => ?_)
  show Leads Puts (if currentText.drop s.sentPosition ≠ [] then _ else _)
  split
  · apply leads_bind (observeFirstToken_puts name)
    intro _
    apply leads_bind (put_puts _)
    intro _
    exact leads_bind (leads_modify (fun _ => puts_of_eq rfl)) (fun _ => observeInterToken_puts name)
  · exact leads_pure _

theorem iterate_puts (name : String) (outputs : List (Option (List Char))) :
    Leads Puts (iterate name outputs) := by
  induction outputs with
  | nil => exact leads_pure _
  | cons output rest ih =>
    cases output with
    | none => exact leads_throw _
    | some currentText => exact leads_bind (putNew_puts name currentText) (fun _ => ih)

theorem tryBlock_puts (name : String) (outputs : List (Option (List Char)))
    (ending : Option Raised) : Leads Puts (tryBlock name outputs ending) := by
  apply leads_bind (iterate_puts name outputs)
  intro _
  cases ending with
  | none => exact leads_bind (observe_puts _) (fun _ => observe_puts _)
  | some e => exact leads_throw e

theorem exceptBlock_puts (name : String) (e : Raised) : Leads Puts (exceptBlock name e) := by
  obtain ⟨isException, message⟩ := e
  cases isException with
  | false => exact leads_throw _
  | true =>
    cases message with
    | none => exact leads_throw _
    | some message => exact leads_bind (put_puts _) (fun _ => observe_puts _)

/-- Inside the `try` statement the sentinel comes last and once, whatever is
raised. -/
theorem produced_yields {m : Manager} {engine : Engine} {prompt : List Char} {requestId : String}
    {outputs : List (Option (List Char))} {ending : Option Raised} (he : m.engine = some engine)
    (hg : engine prompt samplingParams requestId = .yields outputs ending) :
    ∃ texts : List (List Char), produced m prompt requestId = texts.map some ++ [none] := by
  obtain ⟨texts, ht⟩ := leads_tryCatch (tryBlock_puts m.deploymentName outputs ending)
    (exceptBlock_puts m.deploymentName) fresh
  refine ⟨texts, ?_⟩
  have hrun : generateStream m prompt requestId =
      finallyDo (tryCatch (tryBlock m.deploymentName outputs ending)
        (exceptBlock m.deploymentName)) (put none) := by
    simp only [generateStream, he, hg]
  rw [produced, hrun, finalState_finallyDo]
  have hput : ∀ s : Stream, (finalState (put none s)).items = s.items ++ [none] := fun _ => rfl
  rw [hput, ht]
  rfl

theorem produced_unbuilt {m : Manager} (he : m.engine = none) (prompt : List Char)
    (requestId : String) : produced m prompt requestId = [] := by
  simp only [produced, generateStream, he]
  rfl

theorem produced_raises {m : Manager} {engine : Engine} {prompt : List Char} {requestId : String}
    {e : Raised} (he : m.engine = some engine)
    (hg : engine prompt samplingParams requestId = .raises e) :
    produced m prompt requestId = [] := by
  simp only [produced, generateStream, he, hg]
  rfl

end ServingSystem.ReplicaManager
