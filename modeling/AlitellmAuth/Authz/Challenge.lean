import AlitellmAuth.Authz.Jwt
import AlitellmAuth.Framework.Url
import AlitellmAuth.OauthAs.Records

/-! # The challenge and its document

    A 401 of the proxy names a document, and the authorization server composes
    it. The proxy puts the URL together (`challengeDoc`), the server takes its
    path apart again (`protected_resource`), and a client compares what the
    document says with the server it dialled.
-/

namespace AlitellmAuth.Authz

open Text Url

/-! ## The document -/

/-- An RFC 9728 document. -/
structure ResourceDocument where
  resource : String
  authorization_servers : List String
  scopes_supported : List String
  bearer_methods_supported : List String

/-- `str.strip("/")`. -/
def strip_slash (s : String) : String :=
  rstrip_slash (String.ofList (s.toList.dropWhile (· == '/')))

/-- `protected_resource`. -/
def protected_resource (settings : Settings) (api_public_url suffix : String) : ResourceDocument :=
  let resource := rstrip_slash api_public_url
  let suffix := strip_slash suffix
  if suffix = "" then
    { resource := resource
      authorization_servers := [settings.as_issuer]
      scopes_supported := [settings.as_audience]
      bearer_methods_supported := ["header"] }
  else
    let (head, _, svc) := partition '/' suffix.toList
    let svc := String.ofList (partition '/' svc).1
    { resource := resource ++ "/" ++ suffix
      authorization_servers := [settings.as_issuer]
      scopes_supported := if String.ofList head = "mcp" ∧ settings.offers svc then
        [settings.as_audience, svc] else [settings.as_audience]
      bearer_methods_supported := ["header"] }

def wellKnown : String := "/.well-known/oauth-protected-resource"

/-- A `path` parameter: it has no newline, and one at the very end of the path
    is not part of it. -/
def path_param (s : String) : Option String :=
  match partition '\n' s.toList with
  | (before, _, []) => some (String.ofList before)
  | _ => none

/-- The two routes of the document, and the suffix each passes on. -/
def route (path : String) : Option String :=
  if path = wellKnown then some ""
  else (cutFront (wellKnown ++ "/") path).bind path_param

/-- The document a client gets for a URL on the API host. -/
def fetch_document (settings : Settings) (api_public_url url : String) : Option ResourceDocument :=
  ((cutFront (rstrip_slash api_public_url) url).bind route).map
    (protected_resource settings api_public_url)

/-! ## Paths of a service -/

/-- The path of an MCP service, or one below it. -/
def McpPath (path svc : String) : Prop :=
  serviceName svc = true ∧
    (path = "/mcp/" ++ svc ∨ ∃ rest, path = "/mcp/" ++ svc ++ "/" ++ rest)

section
variable {path svc : String}

theorem serviceName_chars (h : serviceName svc = true) : ∀ c ∈ svc.toList, serviceChar c = true := by
  simp only [serviceName, Bool.and_eq_true] at h
  exact List.all_eq_true.mp h.2

theorem serviceName_ne (h : serviceName svc = true) : svc ≠ "" := by
  simp only [serviceName, Bool.and_eq_true, bne_iff_ne] at h
  exact h.1

theorem serviceName_no_slash (h : serviceName svc = true) : '/' ∉ svc.toList := by
  intro hmem
  exact absurd (serviceName_chars h _ hmem) (by decide)

/-- The first segment is all there is of a service name. -/
theorem takeWhile_segment (h : serviceName svc = true) (rest : List Char)
    (hrest : rest = [] ∨ ∃ r, rest = '/' :: r) :
    (svc.toList ++ rest).takeWhile (· != '/') = svc.toList := by
  rw [List.takeWhile_append_of_pos]
  · rcases hrest with rfl | ⟨r, rfl⟩
    · simp
    · simp
  · intro c hc
    rw [bne_iff_ne]
    rintro rfl
    exact serviceName_no_slash h hc

/-- The proxy finds the service of a path. -/
theorem mcpService_of_path (h : McpPath path svc) : mcpService path = svc := by
  obtain ⟨hname, hpath⟩ := h
  have hcut : ∃ rest, cutFront "/mcp/" path = some rest ∧
      rest.toList.takeWhile (· != '/') = svc.toList := by
    rcases hpath with rfl | ⟨rest, rfl⟩
    · refine ⟨svc, cutFront_append _ _, ?_⟩
      have := takeWhile_segment hname [] (.inl rfl)
      rwa [List.append_nil] at this
    · refine ⟨svc ++ "/" ++ rest, ?_, ?_⟩
      · simp only [String.append_assoc]
        exact cutFront_append _ _
      · rw [String.toList_append, String.toList_append, List.append_assoc]
        exact takeWhile_segment hname _ (.inr ⟨rest.toList, rfl⟩)
  obtain ⟨rest, hcut, hseg⟩ := hcut
  simp only [mcpService, hcut, hseg, String.ofList_toList, hname, if_true]

/-- A text is its first segment, or goes on after a slash. -/
theorem segment_cases (l : List Char) :
    l = l.takeWhile (· != '/') ∨ ∃ r, l = l.takeWhile (· != '/') ++ '/' :: r := by
  induction l with
  | nil => exact .inl rfl
  | cons c l ih =>
    by_cases hc : c = '/'
    · subst hc
      exact .inr ⟨l, by simp⟩
    · have hcons : (c :: l).takeWhile (· != '/') = c :: l.takeWhile (· != '/') := by
        simp [hc]
      rw [hcons]
      rcases ih with heq | ⟨r, heq⟩
      · exact .inl (congrArg (c :: ·) heq)
      · exact .inr ⟨r, congrArg (c :: ·) heq⟩

/-- And finds none where there is none. -/
theorem path_of_mcpService (h : mcpService path ≠ "") : McpPath path (mcpService path) := by
  unfold mcpService at h ⊢
  split at h
  · exact absurd rfl h
  · next rest hcut =>
    dsimp only at h ⊢
    split at h
    · next hname =>
      rw [if_pos hname]
      refine ⟨hname, ?_⟩
      rw [append_of_cutFront hcut]
      rcases segment_cases rest.toList with heq | ⟨r, heq⟩
      · left
        rw [← heq, String.ofList_toList]
      · right
        refine ⟨String.ofList r, ?_⟩
        have hrest : rest = String.ofList (rest.toList.takeWhile (· != '/')) ++ "/" ++ String.ofList r := by
          apply String.toList_inj.mp
          simpa using heq
        conv_lhs => rw [hrest]
        simp only [String.append_assoc]
    · exact absurd rfl h

/-! ## Fetching the document -/

variable {settings : Settings} {api_public_url : String}

/-- The root document. -/
theorem fetch_root : fetch_document settings api_public_url (rstrip_slash api_public_url ++ wellKnown) =
    some (protected_resource settings api_public_url "") := by
  rw [fetch_document, cutFront_append]
  rfl

/-- The document of a service. -/
theorem fetch_service (h : serviceName svc = true) :
    fetch_document settings api_public_url (rstrip_slash api_public_url ++ wellKnown ++ "/mcp/" ++ svc) =
      some (protected_resource settings api_public_url ("mcp/" ++ svc)) := by
  have hline : '\n' ∉ ("mcp/" ++ svc).toList := by
    rw [String.toList_append, List.mem_append]
    rintro (hm | hm)
    · exact absurd hm (by decide)
    · exact absurd (serviceName_chars h _ hm) (by decide)
  have hpath : wellKnown ++ ("/mcp/" ++ svc) = wellKnown ++ "/" ++ ("mcp/" ++ svc) := by
    simp only [String.append_assoc]
    rfl
  have hne : wellKnown ++ "/" ++ ("mcp/" ++ svc) ≠ wellKnown := by
    intro heq
    have := congrArg (fun s => s.toList.length) heq
    simp [String.toList_append] at this
  have hroute : route (wellKnown ++ "/" ++ ("mcp/" ++ svc)) = some ("mcp/" ++ svc) := by
    rw [route, if_neg hne, cutFront_append]
    simp only [Option.bind_some, path_param, partition_of_not_mem hline, String.ofList_toList]
  rw [fetch_document, String.append_assoc, String.append_assoc, cutFront_append, hpath,
    Option.bind_some, hroute]
  rfl

/-- There is no slash to strip. -/
theorem strip_slash_service (h : serviceName svc = true) : strip_slash ("mcp/" ++ svc) = "mcp/" ++ svc := by
  have hlast : ∃ c l, svc.toList.reverse = c :: l := by
    match hrev : svc.toList.reverse with
    | [] =>
      have : svc = "" := by
        apply String.toList_inj.mp
        simpa using hrev
      exact absurd this (serviceName_ne h)
    | c :: l => exact ⟨c, l, rfl⟩
  obtain ⟨c, l, hrev⟩ := hlast
  have hc : (c == '/') = false := by
    rw [beq_eq_false_iff_ne]
    rintro rfl
    exact serviceName_no_slash h (List.mem_reverse.mp (hrev ▸ List.mem_cons_self))
  have hfront : ("mcp/" ++ svc).toList.dropWhile (· == '/') = ("mcp/" ++ svc).toList := by
    simp [String.toList_append]
  have hback : ("mcp/" ++ svc).toList.reverse.dropWhile (· == '/') = ("mcp/" ++ svc).toList.reverse := by
    simp [String.toList_append, hrev, hc]
  rw [strip_slash, hfront, String.ofList_toList, rstrip_slash, hback, List.reverse_reverse,
    String.ofList_toList]

/-- What the document of a service says. -/
theorem protected_resource_service (h : serviceName svc = true) :
    (protected_resource settings api_public_url ("mcp/" ++ svc)).resource =
      rstrip_slash api_public_url ++ "/mcp/" ++ svc ∧
    (protected_resource settings api_public_url ("mcp/" ++ svc)).scopes_supported =
      if settings.offers svc then [settings.as_audience, svc] else [settings.as_audience] := by
  have hne : "mcp/" ++ svc ≠ "" := by
    intro heq
    have := congrArg (fun s => s.toList.length) heq
    simp [String.toList_append] at this
  have hhead : partition '/' ("mcp/" ++ svc).toList = ("mcp".toList, true, svc.toList) := by
    rw [String.toList_append]
    exact partition_append (l := "mcp".toList) (by decide) _
  have hsvc : (partition '/' svc.toList).1 = svc.toList := by
    rw [partition_of_not_mem (serviceName_no_slash h)]
  rw [protected_resource]
  simp only [strip_slash_service h, if_neg hne, hhead, hsvc, String.ofList_toList, true_and]
  simp only [String.append_assoc]
  exact ⟨rfl, trivial⟩

/-! ## The pointer and the document -/

/-- The setting that points a client at the documents has no slash to lose. -/
theorem resourceMetadataURL_eq {getenv : String → String} {api : String}
    (h : getenv "AUTHZ_RESOURCE_METADATA_URL" = api ++ wellKnown) :
    (LoadConfig getenv).resourceMetadataURL = api ++ wellKnown := by
  show trimRight '/' (getenv "AUTHZ_RESOURCE_METADATA_URL") = _
  have hlast : wellKnown.toList.reverse = 'e' :: "/.well-known/oauth-protected-resourc".toList.reverse := by
    decide
  rw [h, trimRight, String.toList_append, List.reverse_append, hlast]
  apply String.toList_inj.mp
  rw [String.toList_ofList, List.cons_append, List.dropWhile_cons_of_neg (by decide),
    ← List.cons_append, ← hlast, ← List.reverse_append, List.reverse_reverse, String.toList_append]

/-- What a request is told, if anything, is a challenge. -/
theorem decide_challenges (cfg : Config) (path : String) (h : Headers) (v : Verifier)
    (r : KeyResolver) :
    (Decide cfg path h v r).wwwAuthenticate = "" ∨
      ∃ errCode, (Decide cfg path h v r).wwwAuthenticate = challenge cfg path errCode := by
  match hsel : selected cfg h with
  | none =>
    rw [decide_of_not_selected hsel]
    split
    · exact .inl rfl
    · exact .inr ⟨"", rfl⟩
  | some cred =>
    rw [decide_of_selected hsel]
    split
    · unfold userPath
      split
      · exact .inr ⟨"invalid_token", rfl⟩
      · split
        · exact .inl rfl
        · exact .inl rfl
    · exact .inl rfl

/-- A 401 is never without one: it starts the ceremony, or it is for a token that
    cannot be verified. -/
theorem decide_unauthorized {cfg : Config} {path : String} {h : Headers} {v : Verifier}
    {r : KeyResolver} (hstatus : (Decide cfg path h v r).status = 401) :
    ∃ errCode, (errCode = "" ∨ errCode = "invalid_token") ∧
      (Decide cfg path h v r).wwwAuthenticate = challenge cfg path errCode := by
  match hsel : selected cfg h with
  | none =>
    rw [decide_of_not_selected hsel] at hstatus ⊢
    split at hstatus
    · cases hstatus
    · next hdenied =>
      rw [if_neg hdenied]
      exact ⟨"", .inl rfl, rfl⟩
  | some cred =>
    rw [decide_of_selected hsel] at hstatus ⊢
    split at hstatus
    · next hjws =>
      rw [if_pos hjws]
      unfold userPath at hstatus ⊢
      -- of the two denials of a signed token, a 503 has no challenge
      match hv : v cred.token with
      | none => exact ⟨"invalid_token", .inr rfl, rfl⟩
      | some (sub, scopes) =>
        rw [hv] at hstatus
        dsimp only at hstatus
        split at hstatus
        · cases hstatus
        · cases hstatus
    · cases hstatus

/-- The text of a challenge ends in the pointer. -/
theorem challenge_points (cfg : Config) (path errCode : String) :
    challenge cfg path errCode =
      "Bearer " ++ (if errCode = "" then "" else "error=\"" ++ errCode ++ "\", ") ++
        "resource_metadata=\"" ++ challengeDoc cfg path ++ "\"" := by
  have hplain : "Bearer resource_metadata=\"" = "Bearer " ++ "resource_metadata=\"" := by decide
  have herror : "Bearer error=\"" = "Bearer " ++ "error=\"" := by decide
  have hthen : "\", resource_metadata=\"" = "\", " ++ "resource_metadata=\"" := by decide
  by_cases herr : errCode = ""
  · rw [challenge, if_neg (not_not.mpr herr), if_pos herr, String.append_empty, hplain]
  · rw [challenge, if_pos herr, if_neg herr, herror, hthen]
    simp only [String.append_assoc]

/-- All a challenge takes from the path is a service name. -/
theorem challenge_takes (cfg : Config) (errCode : String) :
    ∃ front back, ∀ path, challenge cfg path errCode = front ++ back ∨
      ∃ svc, (∀ c ∈ svc.toList, serviceChar c = true) ∧
        challenge cfg path errCode = front ++ "/mcp/" ++ svc ++ back := by
  have hsplit : ∃ front back, ∀ path,
      challenge cfg path errCode = front ++ challengeDoc cfg path ++ back := by
    by_cases herr : errCode = ""
    · exact ⟨_, _, fun path => by rw [challenge, if_neg (not_not.mpr herr)]⟩
    · exact ⟨_, _, fun path => by rw [challenge, if_pos herr]⟩
  obtain ⟨front, back, hsplit⟩ := hsplit
  refine ⟨front ++ cfg.resourceMetadataURL, back, fun path => ?_⟩
  rw [hsplit path, challengeDoc]
  by_cases hsvc : mcpService path = ""
  · rw [if_neg (not_not.mpr hsvc)]
    exact .inl rfl
  · rw [if_pos hsvc]
    have hpath := path_of_mcpService hsvc
    refine .inr ⟨_, serviceName_chars hpath.1, ?_⟩
    simp only [String.append_assoc]

/-- The document a challenge points at says what the path of the request is
    about, every 401 has such a pointer, and the path adds nothing to the header
    but the name of a service. -/
theorem challenge_agrees (settings : Settings) (api_public_url : String)
    (getenv : String → String)
    (hurl : getenv "AUTHZ_RESOURCE_METADATA_URL" = rstrip_slash api_public_url ++ wellKnown) :
    (∀ path, ∃ doc,
      fetch_document settings api_public_url (challengeDoc (LoadConfig getenv) path) = some doc ∧
      (∀ svc, McpPath path svc →
        doc.resource = rstrip_slash api_public_url ++ "/mcp/" ++ svc ∧
        doc.scopes_supported =
          if settings.offers svc then [settings.as_audience, svc] else [settings.as_audience]) ∧
      ((∀ svc, ¬ McpPath path svc) →
        doc.resource = rstrip_slash api_public_url ∧ doc.scopes_supported = [settings.as_audience])) ∧
    (∀ path h v r, (Decide (LoadConfig getenv) path h v r).status = 401 → ∃ error,
      (error = "" ∨ error = "error=\"invalid_token\", ") ∧
      (Decide (LoadConfig getenv) path h v r).wwwAuthenticate = "Bearer " ++ error ++
        "resource_metadata=\"" ++ challengeDoc (LoadConfig getenv) path ++ "\"") ∧
    (∀ path h v r, (Decide (LoadConfig getenv) path h v r).wwwAuthenticate = "" ∨
      ∃ errCode, (Decide (LoadConfig getenv) path h v r).wwwAuthenticate =
        challenge (LoadConfig getenv) path errCode) ∧
    ∀ errCode, ∃ front back, ∀ path, challenge (LoadConfig getenv) path errCode = front ++ back ∨
      ∃ svc, (∀ c ∈ svc.toList, serviceChar c = true) ∧
        challenge (LoadConfig getenv) path errCode = front ++ "/mcp/" ++ svc ++ back := by
  refine ⟨fun path => ?_, fun path h v r hstatus => ?_, decide_challenges _, challenge_takes _⟩
  case refine_2 =>
    obtain ⟨errCode, hcode, hheader⟩ := decide_unauthorized hstatus
    rw [hheader, challenge_points]
    rcases hcode with rfl | rfl
    · exact ⟨"", .inl rfl, by rw [if_pos rfl]⟩
    · exact ⟨"error=\"invalid_token\", ", .inr rfl, by rw [if_neg (by decide)]; rfl⟩
  -- a path of a service points to its document, any other to the root
  rw [challengeDoc, resourceMetadataURL_eq hurl]
  by_cases hsvc : mcpService path = ""
  · rw [if_neg (not_not.mpr hsvc)]
    refine ⟨_, fetch_root, fun svc hpath => ?_, fun _ => ⟨rfl, rfl⟩⟩
    rw [mcpService_of_path hpath] at hsvc
    exact absurd hsvc (serviceName_ne hpath.1)
  · rw [if_pos hsvc]
    have hpath := path_of_mcpService hsvc
    refine ⟨_, fetch_service hpath.1, fun svc hpath' => ?_, fun hno => absurd hpath (hno _)⟩
    rw [mcpService_of_path hpath']
    exact protected_resource_service hpath'.1

end

/-- An authorization server with one MCP service. -/
def sampleSettings : Settings where
  app_base_url := "https://auth.example"
  as_issuer_url := ""
  as_audience := "alitellm"
  as_access_ttl_seconds := 3600
  as_refresh_ttl_seconds := 2592000
  services := [("mcp-aws-eks-ro", { store := "aws-eks-ro", broker := "https://broker.example" })]
  oauth_scopes := "openid email"
  internal_token := "internal"

/-- A request below a service is pointed at the document of the service. -/
theorem challenge_agrees_sample : ∃ doc,
    (Decide (LoadConfig sampleEnv) "/mcp/mcp-aws-eks-ro/messages" (fun _ => "") (fun _ => none)
      (fun _ => none)).status = 401 ∧
    fetch_document sampleSettings "https://api.example/"
      (challengeDoc (LoadConfig sampleEnv) "/mcp/mcp-aws-eks-ro/messages") = some doc ∧
    doc.resource = "https://api.example/mcp/mcp-aws-eks-ro" ∧
    doc.scopes_supported = ["alitellm", "mcp-aws-eks-ro"] := by
  have hagrees := challenge_agrees sampleSettings "https://api.example/" sampleEnv (by decide +kernel)
  obtain ⟨doc, hdoc, hservice, -⟩ := hagrees.1 "/mcp/mcp-aws-eks-ro/messages"
  obtain ⟨hresource, hscopes⟩ := hservice "mcp-aws-eks-ro"
    ⟨by decide +kernel, .inr ⟨"messages", by decide +kernel⟩⟩
  refine ⟨doc, by decide +kernel, hdoc, ?_, ?_⟩
  · rw [hresource]
    decide +kernel
  · rw [hscopes]
    decide +kernel

end AlitellmAuth.Authz
