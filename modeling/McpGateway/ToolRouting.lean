import Mathlib
import McpGateway.PyText
import McpGateway.PyDict
import McpGateway.StepRun
import McpGateway.GatewaySettings
import McpGateway.CircuitBreakers
import McpGateway.ToolNaming
import McpGateway.ServerRegistry
import McpGateway.RegistryRuns

/-!
# Resolution of a requested tool

A request names a tool and optionally its server. Without a server the name
goes through the registry lookup; with one, only the server's own textual
prefix is stripped from it. The two paths agree on an advertised tool exactly
when its name is its raw name, prefixed or not, and the raw name does not
itself begin with the prefix.
-/

namespace McpGateway.ToolRouting

open PyText PyDict StepRun GatewaySettings CircuitBreakers ToolNaming ServerRegistry RegistryRuns

/-- The only exception a tool call raises on purpose. -/
structure OrchestrationError where
  /-- Exception text. -/
  message : String
  /-- HTTP status. -/
  code : ℕ := 500
  deriving DecidableEq

/-- `name[len(prefix) + 1:] if name.startswith(prefix + ".") else name`. -/
def stripPrefix (head name : String) : String :=
  if startswith name (head++".")=true then dropChars name (head.length+1) else name

/-- `_resolve`. -/
def resolve (reg : Registry) (name : String) (serverId : Option String) :
    Except OrchestrationError (RegistryEntry×String) :=
  match serverId with
  | some sid =>
    match reg.entries.get? sid with
    | none => .error ⟨"unknown server_id '"++sid++"'",404⟩
    | some entry => .ok (entry,stripPrefix entry.server.effectivePrefix name)
  | none =>
    match reg.findByQualifiedTool name with
    | none => .error ⟨"could not resolve tool '"++name++"'",404⟩
    | some found => .ok found

/-- A prefixed name loses exactly its prefix and dot. -/
theorem stripPrefix_prefixed (head raw : String) : stripPrefix head (head++"."++raw)=raw := by
  have hdot : (head++".").length=head.length+1 := by
    have h1 : (".").length=1 := by decide
    rw [String.length_append,h1]
  rw [stripPrefix,if_pos (startswith_append _ _),←hdot]
  exact dropChars_append _ _

/-- A name is stripped to a given raw name when it is its prefixed form, or
the raw name itself without a prefix to strip. -/
theorem stripPrefix_eq_iff (head name raw : String) :
    stripPrefix head name=raw ↔
      name=head++"."++raw ∨ (startswith name (head++".")=false ∧ name=raw) := by
  constructor
  · intro h
    cases hs : startswith name (head++".") with
    | false =>
      refine Or.inr ⟨rfl,?_⟩
      rw [stripPrefix,if_neg (by rw [hs]; exact Bool.false_ne_true)] at h
      exact h
    | true =>
      obtain ⟨rest,rfl⟩ := startswith_iff.mp hs
      rw [stripPrefix_prefixed] at h
      exact Or.inl (by rw [h])
  · rintro (rfl | ⟨hs,rfl⟩)
    · exact stripPrefix_prefixed head raw
    · rw [stripPrefix,if_neg (by rw [hs]; exact Bool.false_ne_true)]

/-- A raw name survives stripping exactly when it does not begin with the
prefix and a dot. -/
theorem stripPrefix_self_iff (head raw : String) :
    stripPrefix head raw=raw ↔ startswith raw (head++".")=false := by
  rw [stripPrefix_eq_iff]
  constructor
  · rintro (h | h)
    · have hl := congrArg String.length h
      have h1 : (".").length=1 := by decide
      rw [String.length_append,String.length_append,h1] at hl
      omega
    · exact h.1
  · exact fun h => Or.inr ⟨h,rfl⟩

/-- Resolution with an explicit server addresses the entry stored under it. -/
theorem resolve_server {reg : Registry} {sid : String} {entry : RegistryEntry}
    (hg : reg.entries.get? sid=some entry) (name : String) :
    resolve reg name (some sid)=.ok (entry,stripPrefix entry.server.effectivePrefix name) := by
  rw [resolve,hg]

/-- Resolution without a server is the registry lookup. -/
theorem resolve_lookup {reg : Registry} {name : String} {found : RegistryEntry×String}
    (hf : reg.findByQualifiedTool name=some found) : resolve reg name none=.ok found := by
  rw [resolve,hf]

/-- A resolved entry is registered under its own server id. -/
theorem resolve_registered {reg : Registry} (hk : Keyed reg) {name : String}
    {serverId : Option String} {entry : RegistryEntry} {raw : String}
    (h : resolve reg name serverId=.ok (entry,raw)) :
    reg.entries.get? entry.server.id=some entry := by
  have hvalue : entry∈reg.entries.values := by
    unfold resolve at h
    cases serverId with
    | some sid =>
      dsimp only at h
      cases hg : reg.entries.get? sid with
      | none => rw [hg] at h; cases h
      | some e =>
        rw [hg] at h
        cases h
        exact Dict.mem_values_iff.mpr ⟨sid,hg⟩
    | none =>
      dsimp only at h
      cases hf : reg.findByQualifiedTool name with
      | none => rw [hf] at h; cases h
      | some found =>
        rw [hf] at h
        cases h
        exact findByQualifiedTool_mem hf
  obtain ⟨sid,hg⟩ := Dict.mem_values_iff.mp hvalue
  rw [(hk sid entry hg).1]
  exact hg

/-- In every reachable registry, an advertised tool that its name finds is
resolved alike with and without its server id, by advertised and by raw name,
exactly when the advertised name is the raw name, prefixed or not, and the
raw name does not begin with the server's prefix and a dot. -/
theorem resolve_agree_iff (naming : NamingConfig) (policy : CircuitBreakerPolicy)
    (actions : List RegistryAction) (sid : String) (entry : RegistryEntry) (td : ToolDefinition)
    (q : String)
    (hg : (final step (start naming policy) actions).registry.entries.get? sid=some entry)
    (hf : (final step (start naming policy) actions).registry.findByQualifiedTool q=
      some (entry,td.name)) :
    (resolve (final step (start naming policy) actions).registry q (some entry.server.id)=
        .ok (entry,td.name) ∧
      resolve (final step (start naming policy) actions).registry td.name
        (some entry.server.id)=.ok (entry,td.name) ∧
      resolve (final step (start naming policy) actions).registry q none=.ok (entry,td.name)) ↔
    startswith td.name (entry.server.effectivePrefix++".")=false ∧
      (q=td.name ∨ q=entry.server.effectivePrefix++"."++td.name) := by
  have hid := (keyed_final naming policy actions sid entry hg).1
  rw [resolve_lookup hf,hid,resolve_server hg,resolve_server hg]
  simp only [Except.ok.injEq,Prod.mk.injEq,true_and,and_true]
  rw [stripPrefix_self_iff,stripPrefix_eq_iff]
  constructor
  · rintro ⟨h | h,hs⟩
    · exact ⟨hs,Or.inr h⟩
    · exact ⟨hs,Or.inl h.2⟩
  · rintro ⟨hs,h | h⟩
    · exact ⟨Or.inr ⟨by rw [h]; exact hs,h⟩,hs⟩
    · exact ⟨Or.inl h,hs⟩

/-- One server with one tool, synchronized. -/
def oneSync (raw : RawTool) : List RegistryAction :=
  [.register (plainServer "a"),.syncStart "a",.syncFinish 0 (.ok [raw])]

/-- The entry of that server. -/
def oneSyncEntry (raw : RawTool) (q : String) : RegistryEntry :=
  {server := plainServer "a",client := ⟨0,plainServer "a"⟩,
    tools := [toolDefinition (plainServer "a") raw q],healthy := true}

theorem resolve_agree_iff_one :
    let entry := oneSyncEntry {name := "t"} "a.t"
    (final step (start {} {}) (oneSync {name := "t"})).registry.entries.get? "a"=some entry ∧
    ((resolve (final step (start {} {}) (oneSync {name := "t"})).registry "a.t" (some "a")=
        .ok (entry,"t") ∧
      resolve (final step (start {} {}) (oneSync {name := "t"})).registry "t" (some "a")=
        .ok (entry,"t") ∧
      resolve (final step (start {} {}) (oneSync {name := "t"})).registry "a.t" none=
        .ok (entry,"t")) ↔
    startswith "t" ("a"++".")=false ∧ ("a.t"="t" ∨ "a.t"="a"++"."++"t")) :=
  ⟨rfl,resolve_agree_iff {} {} (oneSync {name := "t"}) "a" (oneSyncEntry {name := "t"} "a.t")
    (toolDefinition (plainServer "a") {name := "t"} "a.t") "a.t" rfl rfl⟩

/-- A renamed tool is not found by its advertised name under its own server. -/
theorem resolve_renamed_differs :
    ∃ entry td, (final step (start bareSuffix {})
        (twoSyncs [{name := "t"}] [{name := "t"}])).registry.entries.get? "b"=some entry ∧
      td∈entry.tools ∧ td.qualifiedName=some "t_b" ∧ td.name="t" ∧
      (final step (start bareSuffix {})
        (twoSyncs [{name := "t"}] [{name := "t"}])).registry.findByQualifiedTool "t_b"=
          some (entry,td.name) ∧
      resolve (final step (start bareSuffix {})
        (twoSyncs [{name := "t"}] [{name := "t"}])).registry "t_b" (some entry.server.id)≠
          .ok (entry,td.name) := by
  refine ⟨_,_,rfl,List.mem_singleton_self _,rfl,rfl,rfl,fun h => ?_⟩
  have hraw := congrArg (fun found => found.toOption.map Prod.snd) h
  exact absurd hraw (by decide)

end McpGateway.ToolRouting
