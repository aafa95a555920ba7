import SyslogDtlsAgent.Cli.Page
import SyslogDtlsAgent.Library.Escape

/-!
# Text in attributes

Five replacements in turn are one map of the characters, and reading the entities back in one pass undoes it.
A browser that takes the attributes of the logout page apart finds the values the page was made from.
-/

namespace SyslogDtlsAgent

open Library

/-- The five entities, each with the character it stands for. -/
def entities : Escaping Char where
  marker := '&'
  own := "amp;".toList
  others := [('<', "lt;".toList), ('>', "gt;".toList), ('"', "quot;".toList), ('\'', "#39;".toList)]
  others_ne := by decide
  clean := by decide
  prefix_free := by decide

theorem toList_replaceChar (s : String) (c : Char) (by_ : String) :
    (Text.replaceChar s c by_).toList = substitute c by_.toList s.toList := by
  simp only [Text.replaceChar, String.toList_ofList, substitute, beq_iff_eq]

theorem toList_htmlAttribute (value : String) : (htmlAttribute value).toList = entities.escape value.toList := by
  have hamp : "&amp;".toList = entities.word ('&', "amp;".toList) := by decide
  have hlt : "&lt;".toList = entities.word ('<', "lt;".toList) := by decide
  have hgt : "&gt;".toList = entities.word ('>', "gt;".toList) := by decide
  have hquot : "&quot;".toList = entities.word ('"', "quot;".toList) := by decide
  have hapos : "&#39;".toList = entities.word ('\'', "#39;".toList) := by decide
  have hentries : entities.entries = [('&', "amp;".toList), ('<', "lt;".toList), ('>', "gt;".toList),
      ('"', "quot;".toList), ('\'', "#39;".toList)] := rfl
  have hturn : (htmlAttribute value).toList = entities.escapeInTurn entities.entries value.toList := by
    simp only [htmlAttribute, toList_replaceChar, hamp, hlt, hgt, hquot, hapos, Escaping.escapeInTurn, hentries,
      List.foldl_cons, List.foldl_nil]
  exact hturn.trans (Escaping.escapeInTurn_eq_escape _)

/-- One pass over a text that reads the five entities. -/
def decodeEntities (s : String) : Option String := (entities.unescape s.toList).map String.ofList

theorem decodeEntities_htmlAttribute (value : String) : decodeEntities (htmlAttribute value) = some value := by
  rw [decodeEntities, toList_htmlAttribute, Escaping.unescape_escape, Option.map_some, String.ofList_toList]

theorem special_not_mem {special : Char × List Char} (hspecial : special ∈ entities.others) (value : String) :
    special.1 ∉ (htmlAttribute value).toList := by
  rw [toList_htmlAttribute]
  intro hmem
  exact entities.others_ne special hspecial
    (Escaping.eq_marker_of_mem_escape (List.mem_cons_of_mem _ hspecial) hmem)

theorem quote_not_mem (value : String) : '"' ∉ (htmlAttribute value).toList :=
  @special_not_mem ('"', "quot;".toList) (by decide) value

/-! ### The page -/

/-- Every second element, from the second on. -/
def everySecond {α : Type} : List α → List α
  | _ :: a :: rest => a :: everySecond rest
  | _ => []

/-- The attributes a browser finds on a page that quotes all of them: what stands between two quotes, decoded. -/
def attributeValues (page : String) : List (Option String) :=
  (everySecond (Text.split page '"')).map decodeEntities

/-- Markup and quoted values in turn. -/
def quoteInto : List String → List String → String
  | markup :: rest, value :: values => markup ++ "\"" ++ value ++ "\"" ++ quoteInto rest values
  | markup :: _, [] => markup
  | [], _ => ""

theorem everySecond_quoteInto {markups values : List String} (hlength : markups.length = values.length + 1)
    (hmarkups : ∀ markup ∈ markups, '"' ∉ markup.toList) (hvalues : ∀ value ∈ values, '"' ∉ value.toList) :
    everySecond (Text.split (quoteInto markups values) '"') = values := by
  induction values generalizing markups with
  | nil =>
      obtain ⟨markup, rfl⟩ := List.length_eq_one_iff.mp hlength
      have hmarkup : '"' ∉ markup.toList := hmarkups markup (List.mem_singleton_self _)
      rw [quoteInto, Text.split, List.splitOn_eq_singleton hmarkup]
      rfl
  | cons value values ih =>
      cases markups with
      | nil => cases hlength
      | cons markup rest =>
          obtain ⟨hmarkup, hrest⟩ := List.forall_mem_cons.mp hmarkups
          obtain ⟨hvalue, hothers⟩ := List.forall_mem_cons.mp hvalues
          have htoList : (quoteInto (markup :: rest) (value :: values)).toList =
              markup.toList ++ '"' :: (value.toList ++ '"' :: (quoteInto rest values).toList) := by
            simp [quoteInto]
          have hfound := ih (Nat.succ.inj hlength) hrest hothers
          rw [Text.split, htoList, List.splitOn_append_cons_self_of_not_mem hmarkup,
            List.splitOn_append_cons_self_of_not_mem hvalue, List.map_cons, List.map_cons, String.ofList_toList,
            String.ofList_toList, everySecond]
          exact congrArg (value :: ·) hfound

/-- The markup of the logout page around its attributes. -/
def logoutMarkup : List String :=
  ["<!doctype html><html lang=", "><meta charset=", "><meta name=", " content=",
    "><title>Signing out — Syslog DTLS Agent</title><h1>Signing out</h1><form id=", " method=", " action=",
    "><input type=", " name=", " value=", "><input type=", " name=", " value=",
    "><input type=", " name=", " value=", "><button type=", ">Continue signing out at your identity provider</button></form><script src=",
    "></script></html>"]

def logoutAttributes (endpoint idToken clientId redirectUri : String) : List String :=
  ["en", "utf-8", "viewport", "width=device-width,initial-scale=1", "provider-logout", "post", endpoint,
    "hidden", "id_token_hint", idToken, "hidden", "client_id", clientId, "hidden", "post_logout_redirect_uri",
    redirectUri, "submit", "/auth/logout.js"]

theorem logoutPage_eq (endpoint idToken clientId redirectUri : String) :
    logoutPage endpoint idToken clientId redirectUri =
      quoteInto logoutMarkup (logoutAttributes (htmlAttribute endpoint) (htmlAttribute idToken)
        (htmlAttribute clientId) (htmlAttribute redirectUri)) := by
  have hhead : "<!doctype html><html lang=\"en\"><meta charset=\"utf-8\"><meta name=\"viewport\"" =
      "<!doctype html><html lang=" ++ "\"" ++ "en" ++ "\"" ++ "><meta charset=" ++ "\"" ++ "utf-8" ++ "\"" ++
        "><meta name=" ++ "\"" ++ "viewport" ++ "\"" := by decide +kernel
  have hwidth : " content=\"width=device-width,initial-scale=1\"" =
      " content=" ++ "\"" ++ "width=device-width,initial-scale=1" ++ "\"" := by decide +kernel
  have hform : "><title>Signing out — Syslog DTLS Agent</title><h1>Signing out</h1><form id=\"provider-logout\"" =
      "><title>Signing out — Syslog DTLS Agent</title><h1>Signing out</h1><form id=" ++ "\"" ++
        "provider-logout" ++ "\"" := by decide +kernel
  have haction : " method=\"post\" action=\"" =
      " method=" ++ "\"" ++ "post" ++ "\"" ++ " action=" ++ "\"" := by decide +kernel
  have hhint : "\"><input type=\"hidden\" name=\"id_token_hint\" value=\"" =
      "\"" ++ "><input type=" ++ "\"" ++ "hidden" ++ "\"" ++ " name=" ++ "\"" ++ "id_token_hint" ++
        "\"" ++ " value=" ++ "\"" := by decide +kernel
  have hclient : "\"><input type=\"hidden\" name=\"client_id\" value=\"" =
      "\"" ++ "><input type=" ++ "\"" ++ "hidden" ++ "\"" ++ " name=" ++ "\"" ++ "client_id" ++
        "\"" ++ " value=" ++ "\"" := by decide +kernel
  have hredirect : "\"><input type=\"hidden\" name=\"post_logout_redirect_uri\" value=\"" =
      "\"" ++ "><input type=" ++ "\"" ++ "hidden" ++ "\"" ++ " name=" ++ "\"" ++
        "post_logout_redirect_uri" ++ "\"" ++ " value=" ++ "\"" := by decide +kernel
  have hbutton : "\"><button type=\"submit\"" =
      "\"" ++ "><button type=" ++ "\"" ++ "submit" ++ "\"" := by decide +kernel
  have hscript : "\"/auth/logout.js\"></script></html>" =
      "\"" ++ "/auth/logout.js" ++ "\"" ++ "></script></html>" := by decide +kernel
  unfold logoutPage logoutMarkup logoutAttributes
  rewrite [hhead, hwidth, hform, haction, hhint, hclient, hredirect, hbutton, hscript]
  simp only [quoteInto, String.append_assoc]

/-- Escaping leaves the attributes alone that the page always has. -/
theorem logoutAttributes_map (endpoint idToken clientId redirectUri : String) :
    (logoutAttributes endpoint idToken clientId redirectUri).map htmlAttribute =
      logoutAttributes (htmlAttribute endpoint) (htmlAttribute idToken) (htmlAttribute clientId)
        (htmlAttribute redirectUri) := by
  have hfixed : ["en", "utf-8", "viewport", "width=device-width,initial-scale=1", "provider-logout", "post",
      "hidden", "id_token_hint", "client_id", "post_logout_redirect_uri", "submit", "/auth/logout.js"].map
        htmlAttribute =
      ["en", "utf-8", "viewport", "width=device-width,initial-scale=1", "provider-logout", "post",
        "hidden", "id_token_hint", "client_id", "post_logout_redirect_uri", "submit", "/auth/logout.js"] := by
    decide +kernel
  simp only [List.map_cons, List.cons.injEq] at hfixed
  simp only [logoutAttributes, List.map_cons, hfixed]

/-- A browser finds the values the page was made from, whatever they contain. -/
theorem attributeValues_logoutPage (endpoint idToken clientId redirectUri : String) :
    attributeValues (logoutPage endpoint idToken clientId redirectUri) =
      (logoutAttributes endpoint idToken clientId redirectUri).map some := by
  have hmarkups : ∀ markup ∈ logoutMarkup, '"' ∉ markup.toList := by decide +kernel
  have hvalues : ∀ value ∈ (logoutAttributes endpoint idToken clientId redirectUri).map htmlAttribute,
      '"' ∉ value.toList := by
    intro value hvalue
    obtain ⟨original, -, rfl⟩ := List.mem_map.mp hvalue
    exact quote_not_mem original
  have hlength : logoutMarkup.length =
      ((logoutAttributes endpoint idToken clientId redirectUri).map htmlAttribute).length + 1 := by
    rw [List.length_map]
    rfl
  have hfound := everySecond_quoteInto hlength hmarkups hvalues
  have hdecoded : ((logoutAttributes endpoint idToken clientId redirectUri).map htmlAttribute).map decodeEntities =
      (logoutAttributes endpoint idToken clientId redirectUri).map some := by
    rw [List.map_map]
    apply List.map_congr_left
    intro value _
    rw [Function.comp_apply, decodeEntities_htmlAttribute]
  rewrite [attributeValues, logoutPage_eq, ← logoutAttributes_map, hfound]
  exact hdecoded

/-- For every text: none of the characters that end a tag or an attribute is left, every ampersand begins an
entity, and reading the entities gives the text; so the values of the logout page reach the provider as they are. -/
theorem html_attribute_is_safe_and_lossless (s : String) :
    ('<' ∉ (htmlAttribute s).toList ∧ '>' ∉ (htmlAttribute s).toList ∧ '"' ∉ (htmlAttribute s).toList ∧
        '\'' ∉ (htmlAttribute s).toList) ∧
      (∀ before after, (htmlAttribute s).toList = before ++ '&' :: after →
        ∃ entity ∈ ["&amp;", "&lt;", "&gt;", "&quot;", "&#39;"], entity.toList <+: '&' :: after) ∧
      decodeEntities (htmlAttribute s) = some s ∧
      ∀ endpoint idToken clientId redirectUri,
        attributeValues (logoutPage endpoint idToken clientId redirectUri) =
          (logoutAttributes endpoint idToken clientId redirectUri).map some := by
  refine ⟨⟨?_, ?_, quote_not_mem s, ?_⟩, ?_, decodeEntities_htmlAttribute s, attributeValues_logoutPage⟩
  · exact @special_not_mem ('<', "lt;".toList) (by decide) s
  · exact @special_not_mem ('>', "gt;".toList) (by decide) s
  · exact @special_not_mem ('\'', "#39;".toList) (by decide) s
  · intro before after hs
    rw [toList_htmlAttribute] at hs
    obtain ⟨e, he, hstarts⟩ := Escaping.word_of_marker hs
    have hword : String.ofList (entities.word e) ∈ ["&amp;", "&lt;", "&gt;", "&quot;", "&#39;"] := by
      have hall : ∀ e ∈ entities.entries,
          String.ofList (entities.word e) ∈ ["&amp;", "&lt;", "&gt;", "&quot;", "&#39;"] := by decide
      exact hall e he
    exact ⟨_, hword, by rwa [String.toList_ofList]⟩

end SyslogDtlsAgent
