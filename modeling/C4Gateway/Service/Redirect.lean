import Mathlib.Data.List.Basic

/-! The redirects that the management client follows.  The policy compares a request with the one
before it; the requests of a whole chain stay with the host of the first.  A POST stays a POST, but
`net/http` does not send its body any more once a hop has dropped it, unless the policy
restores it. -/

namespace C4Gateway.Redirect

open Option List

/-- `strings.EqualFold` compares the folded texts. -/
structure Folding where
  fold : String → String
  toLower : String → String
  http_ne_https : fold "http" ≠ fold "https"
  get_ne_post : fold "GET" ≠ fold "POST"

/-- The parts of a URL that the policy reads. -/
structure Url where
  scheme : String
  hostname : String
  port : String := ""
  deriving DecidableEq

/-- `getBody` is absent if there is no such function, and holds no body if it fails. -/
structure Request (Body : Type) where
  url : Url
  method : String
  body : Option Body := none
  getBody : Option (Option Body) := none
  deriving DecidableEq

structure Response where
  status : Nat
  location : Option Url

def Response.rewrites (resp : Response) : Bool := resp.status ∈ [301, 302, 303]

def Response.replays (resp : Response) : Bool := resp.status ∈ [307, 308]

def upstreamRedirectLimit : Nat := 4

section
variable {Body : Type} (F : Folding)

def equalFold (a b : String) : Bool := F.fold a = F.fold b

def redirectPort (value : Url) : String :=
  if value.port ≠ "" then value.port
  else if F.toLower value.scheme = "http" then "80"
  else if F.toLower value.scheme = "https" then "443"
  else ""

def sameUpstreamRedirectHost (left right : Url) : Bool :=
  if !equalFold F left.hostname right.hostname then false
  else if redirectPort F left = redirectPort F right then true
  else equalFold F left.scheme "http" && equalFold F right.scheme "https" &&
    redirectPort F left = "80" && redirectPort F right = "443"

/-- The request as it is sent; absent if the redirect is not followed. -/
def upstreamCheckRedirect (status : Nat) (req : Request Body) (via : List (Request Body)) :
    Option (Request Body) :=
  match via.getLast? with
  | none => none
  | some previous =>
    if via.length > upstreamRedirectLimit then none
    else if !sameUpstreamRedirectHost F previous.url req.url then none
    else if equalFold F previous.url.scheme "https" && !equalFold F req.url.scheme "https" then none
    else if !equalFold F previous.url.scheme req.url.scheme &&
        !(equalFold F previous.url.scheme "http" && equalFold F req.url.scheme "https") then none
    else if equalFold F previous.method "POST" && !equalFold F req.method "POST" then
      if status ∈ [301, 302, 303] then
        match previous.getBody with
        | some (some body) =>
          some { req with
            method := previous.method, body := some body, getBody := previous.getBody }
        | _ => none
      else none
    else some req

/-- What `net/http` makes of a redirect before it asks the policy.  Once a hop has dropped the body,
it is never sent again. -/
def redirected (first current : Request Body) (dropped : Bool) (resp : Response) :
    Option (Request Body) := do
  let url ← resp.location
  if resp.rewrites then
    some { url, method := if current.method ∈ ["GET", "HEAD"] then current.method else "GET" }
  else if resp.replays then
    if first.getBody.isNone && first.body.isSome then none
    else if dropped then some { url, method := current.method }
    else
      match first.getBody with
      | none => some { url, method := current.method }
      | some none => none
      | some (some body) =>
        some { url, method := current.method, body := some body, getBody := first.getBody }
  else none

/-- The redirects that are followed after `earlier` and `current` have been sent, each with the
request it leads to. -/
def follow (first : Request Body) (earlier : List (Request Body)) (current : Request Body)
    (dropped : Bool) : List Response → List (Response × Request Body)
  | [] => []
  | resp :: rest =>
    match (redirected first current dropped resp).bind
        (upstreamCheckRedirect F resp.status · (earlier ++ [current])) with
    | none => []
    | some req =>
      (resp, req) :: follow first (earlier ++ [current]) req (dropped || resp.rewrites) rest

/-- Every hop that is followed, with the request that it leads to. -/
def followed (first : Request Body) (responses : List Response) : List (Response × Request Body) :=
  follow F first [] first false responses

/-- What a later request has in common with an earlier one. -/
structure SameOrigin (a b : Url) : Prop where
  hostname : F.fold a.hostname = F.fold b.hostname
  port : redirectPort F a = redirectPort F b ∨ F.fold a.scheme = F.fold "http" ∧
    F.fold b.scheme = F.fold "https" ∧ redirectPort F a = "80" ∧ redirectPort F b = "443"
  scheme : F.fold a.scheme = F.fold b.scheme ∨
    F.fold a.scheme = F.fold "http" ∧ F.fold b.scheme = F.fold "https"

variable {F} {dropped : Bool} {first current req req' : Request Body} {resp : Response}
  {earlier : List (Request Body)} {status : Nat}

theorem SameOrigin.trans {a b c : Url} (hab : SameOrigin F a b) (hbc : SameOrigin F b c) :
    SameOrigin F a c := by
  have hne := F.http_ne_https
  obtain ⟨hhost, hport, hscheme⟩ := hab
  obtain ⟨hhost', hport', hscheme'⟩ := hbc
  exact ⟨hhost.trans hhost', by grind, by grind⟩

theorem sameUpstreamRedirectHost_iff {a b : Url} :
    sameUpstreamRedirectHost F a b = true ↔ F.fold a.hostname = F.fold b.hostname ∧
      (redirectPort F a = redirectPort F b ∨ F.fold a.scheme = F.fold "http" ∧
        F.fold b.scheme = F.fold "https" ∧ redirectPort F a = "80" ∧ redirectPort F b = "443") := by
  unfold sameUpstreamRedirectHost equalFold
  grind

/-- A request that is followed, with what the policy has made of it. -/
theorem upstreamCheckRedirect_some
    (h : upstreamCheckRedirect F status req (earlier ++ [current]) = some req') :
    earlier.length < upstreamRedirectLimit ∧ SameOrigin F current.url req'.url ∧
      (if F.fold current.method = F.fold "POST" ∧ F.fold req.method ≠ F.fold "POST" then
        req'.method = current.method ∧ req'.getBody = current.getBody ∧
          ∃ body, current.getBody = some (some body) ∧ req'.body = some body
      else req' = req) := by
  simp only [upstreamCheckRedirect, getLast?_concat, length_append, length_singleton,
    ite_none_left_eq_some] at h
  obtain ⟨hlimit, hsame, hdown, hscheme, h⟩ := h
  obtain ⟨hhost, hport⟩ := sameUpstreamRedirectHost_iff.mp (by simpa using hsame)
  have horigin : SameOrigin F current.url req.url := by
    refine ⟨hhost, hport, ?_⟩
    grind [equalFold]
  refine ⟨by omega, ?_⟩
  split at h
  · next hpost =>
    rw [if_pos (by simpa [equalFold] using hpost)]
    split at h
    · split at h
      · next body hbody =>
        cases h
        exact ⟨horigin, rfl, rfl, body, hbody, rfl⟩
      · cases h
    · cases h
  · next hpost =>
    cases h
    rw [if_neg (by simpa [equalFold] using hpost)]
    exact ⟨horigin, rfl⟩

/-- A hop of a chain of POST requests.  The policy undoes the rewriting to GET. -/
theorem hop_post (hcopy : ∀ body, first.getBody = some (some body) → first.body = some body)
    (hpost : current.method = "POST") (hreq : redirected first current dropped resp = some req)
    (hcheck : upstreamCheckRedirect F resp.status req (earlier ++ [current]) = some req') :
    req'.method = "POST" ∧ (current.getBody = first.getBody →
      if resp.rewrites then
        first.body.isSome ∧ req'.body = first.body ∧ req'.getBody = first.getBody
      else if dropped then req'.body = none
      else req'.body = first.body ∧ req'.getBody = first.getBody) := by
  obtain ⟨-, -, hsent⟩ := upstreamCheckRedirect_some hcheck
  obtain ⟨url, -, hreq⟩ := bind_eq_some_iff.mp hreq
  by_cases hrewrites : resp.rewrites
  · rw [if_pos hrewrites, hpost] at hreq
    cases hreq
    rw [if_pos ⟨by rw [hpost], F.get_ne_post⟩] at hsent
    obtain ⟨hmethod, hget', body, hbody, hsame⟩ := hsent
    refine ⟨hmethod.trans hpost, fun hget => ?_⟩
    rw [if_pos hrewrites, hsame, hcopy body (hget ▸ hbody)]
    exact ⟨rfl, rfl, hget'.trans hget⟩
  · simp only [hrewrites, Bool.false_eq_true, if_false, ite_none_right_eq_some,
      ite_none_left_eq_some] at hreq ⊢
    obtain ⟨-, hbody, hreq⟩ := hreq
    have hmethod : req.method = "POST" := by
      grind
    rw [if_neg (by simp [hmethod])] at hsent
    subst hsent
    refine ⟨hmethod, fun _ => ?_⟩
    by_cases hdropped : dropped
    · rw [if_pos hdropped] at hreq ⊢
      cases hreq
      rfl
    · rw [if_neg hdropped] at hreq ⊢
      split at hreq
      · next hnone =>
        cases hreq
        have hbody : first.body = none := by simpa [hnone] using hbody
        exact ⟨hbody.symm, hnone.symm⟩
      · cases hreq
      · next body hsome =>
        cases hreq
        exact ⟨(hcopy body hsome).symm, rfl⟩

theorem follow_origins (responses : List Response) (hlen : earlier.length ≤ upstreamRedirectLimit)
    (h : (earlier ++ [current]).Pairwise fun a b => SameOrigin F a.url b.url) :
    let hops := follow F first earlier current dropped responses
    (earlier ++ [current] ++ hops.map Prod.snd).Pairwise (fun a b => SameOrigin F a.url b.url) ∧
      earlier.length + hops.length ≤ upstreamRedirectLimit := by
  induction responses generalizing earlier current dropped with
  | nil => exact ⟨by simpa [follow] using h, hlen⟩
  | cons resp rest ih =>
    unfold follow
    split
    · exact ⟨by simpa using h, hlen⟩
    · next req' hnext =>
      obtain ⟨req, -, hcheck⟩ := bind_eq_some_iff.mp hnext
      obtain ⟨hlimit, horigin, -⟩ := upstreamCheckRedirect_some hcheck
      have hall : (earlier ++ [current] ++ [req']).Pairwise
          fun a b => SameOrigin F a.url b.url := by
        refine pairwise_append.mpr ⟨h, pairwise_singleton _ _, fun a ha b hb => ?_⟩
        rw [mem_singleton.mp hb]
        rcases mem_append.mp ha with hearlier | hcurrent
        · exact ((pairwise_append.mp h).2.2 a hearlier current (by simp)).trans horigin
        · rw [mem_singleton.mp hcurrent]
          exact horigin
      have ih := @ih (dropped || resp.rewrites) _ _ (by simpa [Nat.succ_le_iff] using hlimit) hall
      simpa [Nat.add_assoc, Nat.add_comm 1] using ih

section
variable (hcopy : ∀ body, first.getBody = some (some body) → first.body = some body)
  (hpost : current.method = "POST") (responses : List Response)
include hcopy hpost

theorem follow_post :
    ∀ hop ∈ follow F first earlier current dropped responses, hop.2.method = "POST" := by
  induction responses generalizing earlier current dropped with
  | nil => simp [follow]
  | cons resp rest ih =>
    unfold follow
    split
    · simp
    · next req' hnext =>
      obtain ⟨req, hreq, hcheck⟩ := bind_eq_some_iff.mp hnext
      have hmethod := (hop_post hcopy hpost hreq hcheck).1
      exact forall_mem_cons.mpr ⟨hmethod, ih hmethod⟩

/-- As long as the body has been kept, it is lost at the first replay after a drop. -/
theorem follow_body (hbody : current.body = first.body) (hget : current.getBody = first.getBody)
    (hdropped : dropped → first.body.isSome) :
    let hops := follow F first earlier current dropped responses
    (∀ hop ∈ hops, hop.2.body = first.body) ↔ (dropped → ∀ hop ∈ hops, hop.1.rewrites) ∧
      (hops.map Prod.fst).Pairwise fun a b => a.rewrites → b.rewrites := by
  induction responses generalizing earlier current dropped with
  | nil => simp [follow]
  | cons resp rest ih =>
    unfold follow
    split
    · simp
    · next req' hnext =>
      obtain ⟨req, hreq, hcheck⟩ := bind_eq_some_iff.mp hnext
      obtain ⟨hmethod, hhop⟩ := hop_post hcopy hpost hreq hcheck
      have hhop := hhop hget
      simp only [forall_mem_cons, map_cons, pairwise_cons, List.forall_mem_map]
      by_cases hrewrites : resp.rewrites
      · rw [if_pos hrewrites] at hhop
        obtain ⟨hsome, hbody', hget'⟩ := hhop
        have ih := @ih (dropped || resp.rewrites) _ (earlier ++ [current]) hmethod hbody' hget'
          fun _ => hsome
        simp only [hrewrites, hbody', Bool.or_true, true_and, true_imp_iff] at ih ⊢
        rw [ih]
        exact ⟨fun h => ⟨fun _ => h.1, h⟩, fun h => h.2⟩
      · rw [if_neg hrewrites] at hhop
        by_cases hd : dropped
        · rw [if_pos hd] at hhop
          have hlost : req'.body ≠ first.body := fun he => by
            simpa [← he, hhop] using hdropped hd
          exact iff_of_false (fun h => hlost h.1) fun h => hrewrites (h.1 hd).1
        · rw [if_neg hd] at hhop
          have ih := @ih (dropped || resp.rewrites) _ (earlier ++ [current]) hmethod hhop.1 hhop.2
            (by simp [hd, hrewrites])
          simp only [hrewrites, hd, hhop.1, Bool.or_false, Bool.false_eq_true, false_imp_iff,
            true_and, implies_true] at ih ⊢
          exact ih

end

/-- The requests of a chain: all go where the first went, or to the standard port of HTTPS from that
of HTTP; a POST stays one, and keeps its body if and only if no 307 or 308 follows a 301, 302 or
303. -/
structure Confined (F : Folding) (first : Request Body) (hops : List (Response × Request Body)) :
    Prop where
  origins : (first :: hops.map Prod.snd).Pairwise fun a b => SameOrigin F a.url b.url
  limit : hops.length ≤ upstreamRedirectLimit
  post : first.method = "POST" → ∀ hop ∈ hops, hop.2.method = "POST"
  body : first.method = "POST" → ((∀ hop ∈ hops, hop.2.body = first.body) ↔
    (hops.map Prod.fst).Pairwise fun a b => a.rewrites → b.rewrites)

theorem redirects_confined (F : Folding) (first : Request Body)
    (hcopy : ∀ body, first.getBody = some (some body) → first.body = some body)
    (responses : List Response) : Confined F first (followed F first responses) := by
  obtain ⟨horigins, hlimit⟩ := @follow_origins _ F false first first [] responses (Nat.zero_le _)
    (pairwise_singleton _ _)
  refine ⟨horigins, by simpa [followed] using hlimit,
    fun hpost => follow_post hcopy hpost responses, fun hpost => ?_⟩
  have hbody := @follow_body _ F false first first [] hcopy hpost responses rfl rfl (by simp)
  simpa [followed] using hbody

end

def asIs : Folding where
  fold := id
  toLower := id
  http_ne_https := by decide
  get_ne_post := by decide

def probe : Request String where
  url := ⟨"http", "relay", ""⟩
  method := "POST"
  body := some "probe"
  getBody := some (some "probe")

def hops : List Response :=
  [⟨307, some ⟨"https", "relay", "443"⟩⟩, ⟨302, some ⟨"https", "relay", ""⟩⟩,
    ⟨302, some ⟨"https", "other", ""⟩⟩]

/-- A probe that is sent on to HTTPS and to the implicit port, but not to another host. -/
theorem redirects_confined_upgrade :
    (followed asIs probe hops).map Prod.snd = [{ probe with url := ⟨"https", "relay", "443"⟩ },
        { probe with url := ⟨"https", "relay", ""⟩ }] ∧
      Confined asIs probe (followed asIs probe hops) :=
  ⟨by decide +kernel, redirects_confined asIs probe (by simp [probe]) hops⟩

/-- Replayed after a hop that the policy has restored, the probe has no body. -/
theorem redirects_drop_body :
    (followed asIs probe [⟨302, some probe.url⟩, ⟨307, some probe.url⟩]).map Prod.snd =
      [probe, { probe with body := none, getBody := none }] := by
  decide +kernel

end C4Gateway.Redirect
