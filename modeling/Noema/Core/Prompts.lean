import Noema.Lib.PyInterp

/-!
# The prompts of the chain of thought (`core/chain_of_thought.py`)

- `StepName`: the steps, with their names as text (`StepName.text`);
- `systemPrompt`: the system prompt of a step;
- `Context`: what the prompts are built from, `Context.items` the dict it is in the source;
- `resolvePrompt`: the user prompt of a step in a context.

The texts are the source's, to the last character: what a step is asked decides whether a resumed
run is like the uninterrupted one, so the prompts cannot be left abstract. A prompt shows a result
of an earlier step compressed (`compress`): a JSON document loses its long fields, other texts are
cut.

`Context` keeps the results of the steps in the order of their insertion. Most prompts look up the
steps they depend on; `reviewPrompt` shows the whole context as an indented document, in its order.

`PyVal.toStr` is `str(v)`, which is where the prompts show values.
-/

namespace Noema.Core

open Noema.Lib PyJson

/-- The steps of `ALL_STEPS`. -/
inductive StepName where
  | repair
  | analysis
  | architecture
  | stack
  | components
  | dataModel
  | apiDesign
  | codegen
  | testing
  | security
  | optimization
  | deployment
  | review
  deriving DecidableEq, Repr

/-- The name of a step, as a key of dicts. -/
def StepName.text : StepName → String
  | .repair => "repair"
  | .analysis => "analysis"
  | .architecture => "architecture"
  | .stack => "stack"
  | .components => "components"
  | .dataModel => "data_model"
  | .apiDesign => "api_design"
  | .codegen => "codegen"
  | .testing => "testing"
  | .security => "security"
  | .optimization => "optimization"
  | .deployment => "deployment"
  | .review => "review"

theorem StepName.text_injective : Function.Injective StepName.text := by
  intro a b h
  cases a <;> cases b <;> simp_all [StepName.text]

/-! ## System prompts -/

/-- `_analyst_system` (chain_of_thought.py:680). -/
def analystSystem : String :=
  "You are a senior systems analyst. Analyze the given task deeply.\n" ++
    "Return a structured JSON analysis with:\n" ++
    "\x7b\n  " ++
    "\"domain\": \"string\",\n  " ++
    "\"complexity\": \"trivial|simple|moderate|complex|extreme\",\n  " ++
    "\"scale\": \"small|medium|large|enterprise\",\n  " ++
    "\"key_challenges\": [\"list\"],\n  " ++
    "\"non_functional_requirements\": [\"list\"],\n  " ++
    "\"estimated_team_size\": number,\n  " ++
    "\"estimated_timeline_weeks\": number,\n  " ++
    "\"risk_factors\": [\x7b\"risk\": \"...\", \"probability\": \"low|medium|high\", " ++
    "\"impact\": \"low|medium|high\", \"mitigation\": \"...\"\x7d],\n  " ++
    "\"success_criteria\": [\"list\"],\n  " ++
    "\"similar_projects\": [\"list\"]\n" ++
    "\x7d\n" ++
    "Return ONLY valid JSON, no markdown blocks."

/-- `_architect_system` (chain_of_thought.py:697). -/
def architectSystem : String :=
  "You are a principal software architect with 15+ years of experience.\n" ++
    "Design the optimal architecture for the given task.\n" ++
    "Return structured JSON:\n" ++
    "\x7b\n  " ++
    "\"pattern\": \x7b\"name\": \"...\", \"description\": \"...\", \"pros\": [...], " ++
    "\"cons\": [...], \"when_to_use\": \"...\"\x7d,\n  " ++
    "\"high_level_design\": \"...\",\n  " ++
    "\"components\": [\x7b\"name\": \"...\", \"type\": " ++
    "\"service|database|cache|queue|gateway|worker\", \"responsibility\": \"...\", " ++
    "\"tech\": \"...\", \"interfaces\": [...]\x7d],\n  " ++
    "\"communication\": \x7b\"sync\": \"REST|gRPC|GraphQL\", \"async\": " ++
    "\"Kafka|RabbitMQ|Redis Streams\", \"patterns\": [\"CQRS\", \"Event Sourcing\", " ++
    "\"Saga\"]\x7d,\n  " ++
    "\"data_flow\": \"...\",\n  " ++
    "\"scalability_strategy\": \"...\",\n  " ++
    "\"trade_offs\": [\x7b\"decision\": \"...\", \"rationale\": \"...\", " ++
    "\"alternatives_rejected\": [...]\x7d]\n" ++
    "\x7d\n" ++
    "Return ONLY valid JSON."

/-- `_stack_system` (chain_of_thought.py:712). -/
def stackSystem : String :=
  "You are a technology advisor. Select the optimal tech stack.\n" ++
    "Consider: maturity, ecosystem, team expertise, performance, cost, long-term " ++
    "maintenance.\n" ++
    "Return structured JSON:\n" ++
    "\x7b\n  " ++
    "\"languages\": [\x7b\"name\": \"...\", \"version\": \"...\", \"why\": \"...\"\x7d],\n  " ++
    "\"frameworks\": [\x7b\"name\": \"...\", \"version\": \"...\", \"why\": \"...\", " ++
    "\"alternatives_considered\": [...]\x7d],\n  " ++
    "\"databases\": [\x7b\"name\": \"...\", \"type\": " ++
    "\"relational|document|cache|search|time-series\", \"why\": \"...\", \"use_case\": " ++
    "\"...\"\x7d],\n  " ++
    "\"infrastructure\": [\x7b\"tool\": \"...\", \"purpose\": \"...\"\x7d],\n  " ++
    "\"monitoring\": [\x7b\"tool\": \"...\", \"purpose\": \"...\"\x7d],\n  " ++
    "\"development_tools\": [\x7b\"tool\": \"...\", \"purpose\": \"...\"\x7d],\n  " ++
    "\"total_monthly_cost_estimate\": \"...\",\n  " ++
    "\"learning_curve\": \"low|medium|high\",\n  " ++
    "\"ecosystem_maturity\": \"experimental|growing|mature|enterprise\"\n" ++
    "\x7d\n" ++
    "Return ONLY valid JSON."

/-- `_component_system` (chain_of_thought.py:729). -/
def componentSystem : String :=
  "You are a software designer. Design detailed component specifications.\n" ++
    "Return structured JSON:\n" ++
    "\x7b\n  " ++
    "\"components\": [\n    " ++
    "\x7b\n      " ++
    "\"name\": \"...\", \"type\": \"...\", \"description\": \"...\",\n      " ++
    "\"interfaces\": [\x7b\"method\": \"...\", \"input\": \"...\", \"output\": \"...\", " ++
    "\"description\": \"...\"\x7d],\n      " ++
    "\"dependencies\": [\"...\"],\n      " ++
    "\"internal_modules\": [\x7b\"name\": \"...\", \"responsibility\": \"...\"\x7d],\n      " ++
    "\"error_handling\": \"...\", \"logging_strategy\": \"...\"\n    " ++
    "\x7d\n  " ++
    "],\n  " ++
    "\"dependency_graph\": \"...\",\n  " ++
    "\"shared_libraries\": [\"...\"]\n" ++
    "\x7d\n" ++
    "Return ONLY valid JSON."

/-- `_data_model_system` (chain_of_thought.py:747). -/
def dataModelSystem : String :=
  "You are a database architect. Design the data model.\n" ++
    "Return structured JSON:\n" ++
    "\x7b\n  " ++
    "\"database\": \"PostgreSQL|MongoDB|etc\",\n  " ++
    "\"tables\": [\n    " ++
    "\x7b\n      " ++
    "\"name\": \"...\", \"description\": \"...\",\n      " ++
    "\"columns\": [\x7b\"name\": \"...\", \"type\": \"...\", \"constraints\": \"...\", " ++
    "\"description\": \"...\"\x7d],\n      " ++
    "\"indexes\": [\x7b\"columns\": [...], \"type\": \"btree|hash|gin|gist\", \"purpose\": " ++
    "\"...\"\x7d],\n      " ++
    "\"partitioning\": \x7b\"strategy\": \"range|hash|list\", \"key\": \"...\", " ++
    "\"reason\": \"...\"\x7d\n    " ++
    "\x7d\n  " ++
    "],\n  " ++
    "\"relationships\": [\x7b\"from\": \"...\", \"to\": \"...\", \"type\": " ++
    "\"one-to-one|one-to-many|many-to-many\", \"foreign_key\": \"...\"\x7d],\n  " ++
    "\"migrations_strategy\": \"...\",\n  " ++
    "\"seed_data_strategy\": \"...\"\n" ++
    "\x7d\n" ++
    "Return ONLY valid JSON."

/-- `_api_system` (chain_of_thought.py:766). -/
def apiSystem : String :=
  "You are an API designer. Design RESTful or GraphQL APIs.\n" ++
    "Return structured JSON:\n" ++
    "\x7b\n  " ++
    "\"api_style\": \"REST|GraphQL|gRPC\",\n  " ++
    "\"base_url\": \"/api/v1\",\n  " ++
    "\"authentication\": \"JWT|OAuth2|API_KEY\",\n  " ++
    "\"endpoints\": [\n    " ++
    "\x7b\n      " ++
    "\"method\": \"GET|POST|PUT|DELETE|PATCH\", \"path\": \"/resource\",\n      " ++
    "\"description\": \"...\", \"request_body\": \x7b\"field\": \"type\"\x7d, " ++
    "\"response\": \x7b\"field\": \"type\"\x7d,\n      " ++
    "\"status_codes\": [200, 201, 400, 404, 500],\n      " ++
    "\"rate_limit\": \"...\", \"permissions\": [\"...\"]\n    " ++
    "\x7d\n  " ++
    "],\n  " ++
    "\"error_response_format\": \x7b\"error\": \"string\", \"code\": \"string\", " ++
    "\"details\": \x7b\x7d\x7d,\n  " ++
    "\"pagination\": \"cursor|offset|keyset\",\n  " ++
    "\"versioning_strategy\": \"...\"\n" ++
    "\x7d\n" ++
    "Return ONLY valid JSON."

/-- `_codegen_system` (chain_of_thought.py:787). -/
def codegenSystem : String :=
  "You are a senior developer. Generate PRODUCTION-READY code.\n" ++
    "Write complete, working code. No placeholders, no TODOs, no pseudocode.\n" ++
    "Use proper error handling, type hints, docstrings, logging.\n" ++
    "\n" ++
    "For each file return:\n" ++
    "\x7b\n  " ++
    "\"files\": [\n    " ++
    "\x7b\n      " ++
    "\"path\": \"src/module/file.py\",\n      " ++
    "\"language\": \"python\",\n      " ++
    "\"content\": \"full working code here\",\n      " ++
    "\"description\": \"what this file does\"\n    " ++
    "\x7d\n  " ++
    "],\n  " ++
    "\"entry_points\": [\"main.py\"],\n  " ++
    "\"setup_commands\": [\"pip install ...\"]\n" ++
    "\x7d\n" ++
    "\n" ++
    "Code must be:\n" ++
    "- Complete and runnable\n" ++
    "- Well-typed (type hints)\n" ++
    "- Properly structured (classes, functions, modules)\n" ++
    "- With error handling\n" ++
    "- With logging\n" ++
    "- Following clean architecture principles\n" ++
    "\n" ++
    "Return ONLY valid JSON."

/-- `_testing_system` (chain_of_thought.py:816). -/
def testingSystem : String :=
  "You are a QA architect. Design comprehensive testing strategy.\n" ++
    "Return structured JSON:\n" ++
    "\x7b\n  " ++
    "\"testing_pyramid\": \x7b\"unit\": \"%\", \"integration\": \"%\", \"e2e\": " ++
    "\"%\"\x7d,\n  " ++
    "\"test_framework\": \"...\",\n  " ++
    "\"test_files\": [\x7b\"path\": \"...\", \"description\": \"...\", \"test_count\": " ++
    "number, \"key_scenarios\": [\"...\"]\x7d],\n  " ++
    "\"ci_integration\": \"...\",\n  " ++
    "\"coverage_target\": \"90%\",\n  " ++
    "\"performance_testing\": \"...\",\n  " ++
    "\"security_testing\": \"...\"\n" ++
    "\x7d\n" ++
    "Return ONLY valid JSON."

/-- `_security_system` (chain_of_thought.py:830). -/
def securitySystem : String :=
  "You are a security engineer. Perform security analysis and provide hardening measures.\n" ++
    "Return structured JSON:\n" ++
    "\x7b\n  " ++
    "\"threat_model\": [\x7b\"threat\": \"...\", \"likelihood\": \"low|medium|high\", " ++
    "\"impact\": \"low|medium|high\", \"mitigation\": \"...\"\x7d],\n  " ++
    "\"owasp_checks\": [\x7b\"category\": \"...\", \"status\": \"pass|needs_attention\", " ++
    "\"recommendation\": \"...\"\x7d],\n  " ++
    "\"authentication\": \x7b\"method\": \"...\", \"implementation\": \"...\"\x7d,\n  " ++
    "\"authorization\": \x7b\"model\": \"RBAC|ABAC\", \"implementation\": \"...\"\x7d,\n  " ++
    "\"data_protection\": \x7b\"encryption_at_rest\": \"...\", \"encryption_in_transit\": " ++
    "\"...\", \"pii_handling\": \"...\"\x7d,\n  " ++
    "\"secrets_management\": \"...\",\n  " ++
    "\"dependency_audit\": \"...\",\n  " ++
    "\"penetration_testing\": \"...\"\n" ++
    "\x7d\n" ++
    "Return ONLY valid JSON."

/-- `_optimization_system` (chain_of_thought.py:845). -/
def optimizationSystem : String :=
  "You are a performance engineer. Design optimization strategy.\n" ++
    "Return structured JSON:\n" ++
    "\x7b\n  " ++
    "\"caching\": \x7b\"strategy\": \"...\", \"layers\": [\x7b\"level\": \"L1|L2|L3\", " ++
    "\"tool\": \"...\", \"ttl\": \"...\", \"invalidation\": \"...\"\x7d]\x7d,\n  " ++
    "\"database_optimization\": [\"...\"],\n  " ++
    "\"async_processing\": \x7b\"tool\": \"...\", \"patterns\": [\"...\"]\x7d,\n  " ++
    "\"cdn_strategy\": \"...\",\n  " ++
    "\"lazy_loading\": \"...\",\n  " ++
    "\"connection_pooling\": \x7b\"min\": ..., \"max\": ..., \"timeout\": ...\x7d,\n  " ++
    "\"monitoring_metrics\": [\"...\"],\n  " ++
    "\"load_testing\": \x7b\"tool\": \"...\", \"targets\": [...]\x7d\n" ++
    "\x7d\n" ++
    "Return ONLY valid JSON."

/-- `_deployment_system` (chain_of_thought.py:860). -/
def deploymentSystem : String :=
  "You are a DevOps engineer. Design deployment and infrastructure.\n" ++
    "Return structured JSON:\n" ++
    "\x7b\n  " ++
    "\"containerization\": \x7b\"dockerfile\": \"...\", \"multi_stage\": true, " ++
    "\"base_image\": \"...\"\x7d,\n  " ++
    "\"orchestration\": \x7b\"platform\": \"kubernetes|ecs|cloud-run\", \"config\": " ++
    "\"...\"\x7d,\n  " ++
    "\"ci_cd\": \x7b\"provider\": \"github-actions|gitlab-ci|jenkins\", \"stages\": " ++
    "[...]\x7d,\n  " ++
    "\"environment_strategy\": \x7b\"dev\": \"...\", \"staging\": \"...\", \"production\": " ++
    "\"...\"\x7d,\n  " ++
    "\"monitoring\": \x7b\"metrics\": \"...\", \"logging\": \"...\", \"tracing\": " ++
    "\"...\"\x7d,\n  " ++
    "\"scaling\": \x7b\"horizontal\": \"...\", \"vertical\": \"...\", " ++
    "\"auto_scaling_rules\": [...]\x7d,\n  " ++
    "\"backup_strategy\": \"...\",\n  " ++
    "\"disaster_recovery\": \"...\"\n" ++
    "\x7d\n" ++
    "Return ONLY valid JSON."

/-- `_repair_system` (chain_of_thought.py:875). -/
def repairSystem : String :=
  "You are a senior debugger. The previous attempt failed with specific errors.\n" ++
    "Analyze the errors and propose a repaired plan.\n" ++
    "Return structured JSON:\n" ++
    "\x7b\n  " ++
    "\"root_cause\": \"what went wrong\",\n  " ++
    "\"fixes\": [\x7b\"step\": \"...\", \"action\": \"...\", \"rationale\": \"...\"\x7d],\n  " ++
    "\"revised_architecture\": \"changes to architecture if needed\",\n  " ++
    "\"risk_of_regression\": \"low|medium|high\"\n" ++
    "\x7d\n" ++
    "Return ONLY valid JSON."

/-- `_review_system` (chain_of_thought.py:887). -/
def reviewSystem : String :=
  "You are a technical lead performing final review.\n" ++
    "Review all decisions and provide overall assessment.\n" ++
    "Return structured JSON:\n" ++
    "\x7b\n  " ++
    "\"overall_quality\": \"1-10\",\n  " ++
    "\"architecture_score\": \"1-10\",\n  " ++
    "\"code_quality_score\": \"1-10\",\n  " ++
    "\"security_score\": \"1-10\",\n  " ++
    "\"performance_score\": \"1-10\",\n  " ++
    "\"maintainability_score\": \"1-10\",\n  " ++
    "\"strengths\": [\"...\"],\n  " ++
    "\"weaknesses\": [\"...\"],\n  " ++
    "\"improvements\": [\"...\"],\n  " ++
    "\"production_readiness\": \"ready|needs-work|major-issues\",\n  " ++
    "\"confidence\": \"0.0-1.0\",\n  " ++
    "\"final_summary\": \"one paragraph summary\"\n" ++
    "\x7d\n" ++
    "Return ONLY valid JSON."

/-- The system prompt of a step, as `_build_dag` sets it. -/
def systemPrompt : StepName → String
  | .repair => repairSystem
  | .analysis => analystSystem
  | .architecture => architectSystem
  | .stack => stackSystem
  | .components => componentSystem
  | .dataModel => dataModelSystem
  | .apiDesign => apiSystem
  | .codegen => codegenSystem
  | .testing => testingSystem
  | .security => securitySystem
  | .optimization => optimizationSystem
  | .deployment => deploymentSystem
  | .review => reviewSystem

/-! ## Context -/

variable {F : Type}

/-- A request for reasoning: the arguments of `reason` that the prompts show. -/
structure Request (F : Type) where
  taskDescription : String
  taskTags : List String
  requirements : List (List (String × PyVal F))
  knowledgeContext : String := ""
  graphContext : String := ""
  ontologyContext : String := ""
  complexity : String := "moderate"
  reflexionErrors : List String := []

/-- `self._context`: the request, and the results of steps in the order of their insertion. -/
structure Context (F : Type) where
  request : Request F
  results : List (StepName × String)

/-- The items that `reason` puts into `self._context` first. -/
def Request.items (req : Request F) : List (String × PyVal F) :=
  [("task", .str req.taskDescription), ("tags", .list (req.taskTags.map .str)),
    ("requirements", .list (req.requirements.map .dict)),
    ("knowledge", .str req.knowledgeContext), ("graph", .str req.graphContext),
    ("ontology", .str req.ontologyContext)] ++
  (if req.reflexionErrors = [] then []
    else [("_reflexion_errors", .list (req.reflexionErrors.map .str))])

/-- `self._context` as the dict it is. -/
def Context.items (ctx : Context F) : List (String × PyVal F) :=
  ctx.request.items ++ ctx.results.map fun (name, result) => (name.text, .str result)

/-- `ctx.get(name, "")`. -/
def Context.result (ctx : Context F) (name : StepName) : String :=
  (ctx.results.lookup name).getD ""

/-- `ctx[name] = result`: a new name goes to the end. -/
def Context.set (ctx : Context F) (name : StepName) (result : String) : Context F :=
  { ctx with
    results :=
      if name ∈ ctx.results.map Prod.fst then
        ctx.results.map fun kv => if kv.1 = name then (name, result) else kv
      else ctx.results ++ [(name, result)] }

/-- `s[:n]`. -/
def pySlice (s : String) (n : Nat) : String := String.ofList (s.toList.take n)

/-- `xs[-n:]`. -/
def lastOf {α : Type} (xs : List α) (n : Nat) : List α := xs.drop (xs.length - n)

/-! ## User prompts -/

section Prompts

variable [PyInterp F]

/-- One field of a compressed dict. -/
def compressValue : PyVal F → PyVal F
  | .str s => .str (if 200 < s.length then pySlice s 200 ++ "..." else s)
  | .list xs => .list (if 5 < xs.length then xs.take 5 else xs)
  | .dict d => .dict ((d.take 8).map fun (k, v) => (k, .str (pySlice v.toStr 100)))
  | v => v

/-- `_compress` (chain_of_thought.py:585). -/
def compress (F : Type) [PyInterp F] (text : String) (maxChars : Nat) : String :=
  if text.length ≤ maxChars then text
  else
    let cut := pySlice text maxChars ++ "..."
    match (loads text.toList : Option (PyVal F)) with
    | some (.dict d) =>
      let result := dumps false (.dict (d.map fun (k, v) => (k, compressValue v)))
      if result.length ≤ maxChars then String.ofList result else cut
    | some (.list xs) =>
      if 5 < xs.length then String.ofList (dumps false (.list (xs.take 5))) else cut
    | _ => cut

/-- `_analyst_prompt` (chain_of_thought.py:907). -/
def analystPrompt (task : String) (tags : List String) (reqs : List (List (String × PyVal F)))
    (knowledge ontology : String) : String :=
  let field (r : List (String × PyVal F)) (key : String) (fallback : PyVal F) : String :=
    ((r.lookup key).getD fallback).toStr
  "\n".intercalate (
    ["Task: " ++ task, "Tags: " ++ ", ".intercalate tags] ++
    (if reqs = [] then []
      else "Requirements:" :: reqs.map fun r =>
        "  - [" ++ field r "category" (.str "general") ++ "] " ++ field r "description" (.str "") ++
          " (priority: " ++ field r "priority" (.int 5) ++ ")") ++
    (if ontology = "" then []
      else ["\n[ONTOLOGICAL AXIOMS - DO NOT VIOLATE]\n" ++ pySlice ontology 2000]) ++
    (if knowledge = "" then [] else ["\nRelevant knowledge:\n" ++ pySlice knowledge 2000]))

/-- `_architect_prompt` (chain_of_thought.py:928). -/
def architectPrompt (analysis graph : String) : String :=
  "\n".intercalate (
    ["Analysis from previous step:\n" ++ pySlice analysis 3000] ++
    (if graph = "" then [] else ["\nKnowledge graph suggestions:\n" ++ pySlice graph 1000]) ++
    ["\nDesign the optimal architecture. Return ONLY valid JSON."])

/-- `_stack_prompt` (chain_of_thought.py:935). -/
def stackPrompt (architecture : String) (tags : List String) : String :=
  "Architecture design:\n" ++ pySlice architecture 3000 ++ "\n\nTags: " ++
    ", ".intercalate tags ++ "\n\nSelect the optimal tech stack. Return ONLY valid JSON."

/-- `_component_prompt` (chain_of_thought.py:938). -/
def componentPrompt (architecture stack : String) : String :=
  "Architecture:\n" ++ pySlice architecture 2000 ++ "\n\nStack:\n" ++ pySlice stack 1000 ++
    "\n\nDesign detailed component specifications. Return ONLY valid JSON."

/-- `_data_model_prompt` (chain_of_thought.py:941). -/
def dataModelPrompt (components stack : String) (reqs : List (List (String × PyVal F))) : String :=
  "Components:\n" ++ pySlice components 2000 ++ "\n\nStack:\n" ++ pySlice stack 500 ++
    "\n\nRequirements: " ++ (PyVal.list (reqs.map .dict)).toStr ++
    "\n\nDesign the data model. Return ONLY valid JSON."

/-- `_api_prompt` (chain_of_thought.py:944), which does not show the requirements. -/
def apiPrompt (components stack : String) : String :=
  "Components:\n" ++ pySlice components 2000 ++ "\n\nStack:\n" ++ pySlice stack 500 ++
    "\n\nDesign the API layer. Return ONLY valid JSON."

/-- `_codegen_prompt` (chain_of_thought.py:947). -/
def codegenPrompt (stack api data components : String) : String :=
  "Stack:\n" ++ pySlice stack 1000 ++ "\n\nAPI Design:\n" ++ pySlice api 2000 ++
    "\n\nData Model:\n" ++ pySlice data 2000 ++ "\n\nComponents:\n" ++ pySlice components 1000 ++
    "\n\nGenerate complete, production-ready code for ALL files. Return ONLY valid JSON."

/-- What the prompts of testing and security have in common. -/
def checkPrompt (ending stack api components : String) : String :=
  "Stack:\n" ++ pySlice stack 500 ++ "\n\nAPI:\n" ++ pySlice api 1500 ++ "\n\nComponents:\n" ++
    pySlice components 1000 ++ ending

/-- `_testing_prompt` (chain_of_thought.py:956). -/
def testingPrompt : String → String → String → String :=
  checkPrompt "\n\nDesign testing strategy. Return ONLY valid JSON."

/-- `_security_prompt` (chain_of_thought.py:959). -/
def securityPrompt : String → String → String → String :=
  checkPrompt "\n\nPerform security analysis. Return ONLY valid JSON."

/-- `_optimization_prompt` (chain_of_thought.py:962). -/
def optimizationPrompt (stack components arch : String) : String :=
  "Stack:\n" ++ pySlice stack 500 ++ "\n\nComponents:\n" ++ pySlice components 1000 ++
    "\n\nArchitecture:\n" ++ pySlice arch 1000 ++
    "\n\nDesign optimization strategy. Return ONLY valid JSON."

/-- `_deployment_prompt` (chain_of_thought.py:965). -/
def deploymentPrompt (stack components : String) : String :=
  "Stack:\n" ++ pySlice stack 500 ++ "\n\nComponents:\n" ++ pySlice components 1000 ++
    "\n\nDesign deployment infrastructure. Return ONLY valid JSON."

/-- `_repair_prompt` (chain_of_thought.py:968). -/
def repairPrompt (ctx : Context F) : String :=
  let errors := ctx.request.reflexionErrors
  let errorBlock := if errors = [] then "No prior errors"
    else "\n".intercalate ((lastOf errors 5).map fun e => "  - " ++ e)
  let analysis := pySlice ((ctx.results.lookup .analysis).getD "No analysis available") 2000
  "Previous attempt errors:\n" ++ errorBlock ++ "\n\nAnalysis:\n" ++ analysis ++
    "\n\nAnalyze these failures and propose a repaired design. Return ONLY valid JSON."

/-- `json.dumps(d, indent=2, ensure_ascii=False)` for a dict of strings that is not empty. -/
def dumpsIndented (d : List (String × String)) : String :=
  "\x7b\n" ++ ",\n".intercalate (d.map fun (k, v) =>
    "  " ++ String.ofList (dumpsStr false k) ++ ": " ++ String.ofList (dumpsStr false v)) ++ "\n\x7d"

/-- `_review_prompt` (chain_of_thought.py:978). -/
def reviewPrompt (ctx : Context F) : String :=
  let summary := dumpsIndented (ctx.items.map fun (k, v) => (k, pySlice v.toStr 500))
  "Full project context:\n" ++ pySlice summary 4000 ++
    "\n\nPerform final review. Return ONLY valid JSON."

/-- `self._compress(ctx.get(name, ""), max_chars)`. -/
def Context.brief (ctx : Context F) (name : StepName) (maxChars : Nat) : String :=
  compress F (ctx.result name) maxChars

/-- `_resolve_prompt` (chain_of_thought.py:613). The prompt of the analysis is the one that
`_build_dag` sets. -/
def resolvePrompt (ctx : Context F) : StepName → String
  | .analysis => analystPrompt ctx.request.taskDescription ctx.request.taskTags
      ctx.request.requirements ctx.request.knowledgeContext ctx.request.ontologyContext
  | .architecture => architectPrompt (ctx.brief .analysis 2000) ctx.request.graphContext
  | .stack => stackPrompt (ctx.brief .architecture 2000) ctx.request.taskTags
  | .components => componentPrompt (ctx.brief .architecture 1500) (ctx.brief .stack 800)
  | .dataModel => dataModelPrompt (ctx.brief .components 1500) (ctx.brief .stack 400)
      ctx.request.requirements
  | .apiDesign => apiPrompt (ctx.brief .components 1500) (ctx.brief .stack 400)
  | .codegen => codegenPrompt (ctx.brief .stack 800) (ctx.brief .apiDesign 1500)
      (ctx.brief .dataModel 1500) (ctx.brief .components 800)
  | .testing => testingPrompt (ctx.brief .stack 400) (ctx.brief .apiDesign 1000)
      (ctx.brief .components 800)
  | .security => securityPrompt (ctx.brief .stack 400) (ctx.brief .apiDesign 1000)
      (ctx.brief .components 800)
  | .optimization => optimizationPrompt (ctx.brief .stack 400) (ctx.brief .components 800)
      (ctx.brief .architecture 800)
  | .deployment => deploymentPrompt (ctx.brief .stack 400) (ctx.brief .components 800)
  | .review => reviewPrompt ctx
  | .repair => repairPrompt ctx

end Prompts

end Noema.Core
