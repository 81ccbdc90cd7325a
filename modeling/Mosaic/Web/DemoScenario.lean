/-
The scenario of the demo (src/shared/demo/demo-scenario.ts), as far as the
store reads it: the ids of the models, the two conversations and what is
empty at first. Their scripts and the presentation of the models are left
out.
-/
import Mosaic.Web.DemoState

namespace Mosaic.Web

open Lib Js

variable {δ : Type} {N : Numerals}

/-- A message of the scenario; all of them are complete. -/
def scenarioMessage (message_id role content created_at request_id : String) : Js δ :=
  .record
    [(js "message_id", .string (js message_id)), (js "role", .string (js role)),
      (js "content", .string (js content)), (js "status", .string (js "complete")),
      (js "created_at", .string (js created_at)), (js "request_id", .string (js request_id))]

/-- A conversation of the scenario; none is answering. -/
def scenarioConversation (conversation_id product_model_id title : String)
    (messages : List (Js δ)) (updated_at : String) : Js δ :=
  .record
    [(js "conversation_id", .string (js conversation_id)),
      (js "product_model_id", .string (js product_model_id)),
      (js "title", .string (js title)), (js "messages", .array messages),
      (js "updated_at", .string (js updated_at)), (js "active_request_id", .null),
      (js "active_request_cursor", .null)]

theorem distinct_scenarioMessage (message_id role content created_at request_id : String) :
    (scenarioMessage message_id role content created_at request_id : Js δ).Distinct := by
  apply Distinct.record
  · simp
  · simp only [List.forall_mem_cons]
    exact ⟨.string _, .string _, .string _, .string _, .string _, .string _, by simp⟩

theorem distinct_scenarioConversation (conversation_id product_model_id title : String)
    {messages : List (Js δ)} (updated_at : String) (h : ∀ m ∈ messages, m.Distinct) :
    (scenarioConversation conversation_id product_model_id title messages
      updated_at).Distinct := by
  apply Distinct.record
  · simp
  · simp only [List.forall_mem_cons]
    exact ⟨.string _, .string _, .string _, .array h, .string _, .null, .null, by simp⟩

/-- `models`, by their ids. -/
def scenarioModelIds : List JsStr :=
  ["qwen-3-5", "deepseek-v4", "glm-5-2", "kimi-k2-7-code", "gpt-oss", "gemma-4", "qwen-image",
    "flux-2", "hunyuan-video-1-5", "qwen3-tts-voice-design", "qwen3-tts-custom-voice",
    "qwen3-tts-base"].map js

/-- The first of the `conversations`. -/
def planningConversation : Js.Data δ where
  value := scenarioConversation "conversation-qwen-3-5-001" "qwen-3-5" "产品规划讨论"
    [scenarioMessage "message-qwen-001-user-001" "user" "帮我把新产品的验证路径拆成几步。"
      "2026-08-20T10:00:00.000Z" "request-qwen-001-turn-001",
    scenarioMessage "message-qwen-001-assistant-001" "assistant"
      "可以从目标用户、核心任务和最小验证开始，再安排可观测的反馈节点。"
      "2026-08-20T10:00:02.000Z" "request-qwen-001-turn-001",
    scenarioMessage "message-qwen-001-user-002" "user" "第二步应该先做功能还是先做访谈？"
      "2026-08-20T10:01:00.000Z" "request-qwen-001-turn-002",
    scenarioMessage "message-qwen-001-assistant-002" "assistant"
      "先做小样本访谈更稳妥，它能帮助你缩小功能范围，再用原型验证关键路径。"
      "2026-08-20T10:01:03.000Z" "request-qwen-001-turn-002"]
    "2026-08-20T10:01:03.000Z"
  distinct := by
    apply distinct_scenarioConversation
    simp only [List.forall_mem_cons, distinct_scenarioMessage, List.not_mem_nil,
      false_implies, implies_true, and_self]

/-- The second of the `conversations`. -/
def summaryConversation : Js.Data δ where
  value := scenarioConversation "conversation-qwen-3-5-002" "qwen-3-5" "研究摘要整理"
    [scenarioMessage "message-qwen-002-user-001" "user" "请帮我整理一份研究摘要的结构。"
      "2026-08-20T11:00:00.000Z" "request-qwen-002-turn-001",
    scenarioMessage "message-qwen-002-assistant-001" "assistant"
      "可以按问题、方法、观察结果和限制四段组织，让读者先理解研究动机。"
      "2026-08-20T11:00:02.000Z" "request-qwen-002-turn-001",
    scenarioMessage "message-qwen-002-user-002" "user" "如何让限制部分更具体？"
      "2026-08-20T11:01:00.000Z" "request-qwen-002-turn-002",
    scenarioMessage "message-qwen-002-assistant-002" "assistant"
      "把数据范围、未覆盖的情境和仍需验证的假设分别写出来，并说明它们对结论的影响。"
      "2026-08-20T11:01:03.000Z" "request-qwen-002-turn-002"]
    "2026-08-20T11:01:03.000Z"
  distinct := by
    apply distinct_scenarioConversation
    simp only [List.forall_mem_cons, distinct_scenarioMessage, List.not_mem_nil,
      false_implies, implies_true, and_self]

/-- An empty object. -/
def noEntries : Js.Data δ := ⟨.record [], .record List.nodup_nil (by simp)⟩

/-- `DEMO_SCENARIO`. -/
def DEMO_SCENARIO : Scenario N where
  modelIds := scenarioModelIds
  favorites := []
  selectedModelId := js "qwen-3-5"
  conversations := [planningConversation, summaryConversation]
  chatRequests := noEntries
  drafts := noEntries

end Mosaic.Web
