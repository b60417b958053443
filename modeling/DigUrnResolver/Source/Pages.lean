/-
# The branded pages (`pages.rs`)

The two HTML documents that stand in for content which could not be shown, and the rendering of an
outcome for a webview.
-/
import DigUrnResolver.Source.Basic

namespace DigUrnResolver

namespace Pages

def htmlContentType : String := "text/html"

/-- Escape a text for an HTML attribute: five replacements, one after the other. -/
def escape (input : String) : String :=
  Text.replace '\'' "&#39;" (Text.replace '"' "&quot;" (Text.replace '>' "&gt;"
    (Text.replace '<' "&lt;" (Text.replace '&' "&amp;" input))))

/-- The document that the two pages share. -/
def page (accent glow brandTag heading bodyHtml : String) : String :=
  "<!doctype html>
<html lang=\"en\">
<head>
<meta charset=\"utf-8\">
<meta name=\"viewport\" content=\"width=device-width, initial-scale=1\">
<title>" ++ heading ++ "</title>
<style>
  :root \x7b color-scheme: dark; \x7d
  * \x7b box-sizing: border-box; \x7d
  html, body \x7b height: 100%; margin: 0; \x7d
  body \x7b
    display: flex; align-items: center; justify-content: center;
    min-height: 100%; padding: 24px;
    background: radial-gradient(1200px 600px at 50% -10%, " ++ glow ++ " 0%, #0a0f1e 60%, #070a14 100%);
    color: #e8ecf6;
    font-family: -apple-system, BlinkMacSystemFont, \"Segoe UI\", Roboto, Helvetica, Arial, sans-serif;
    -webkit-font-smoothing: antialiased; text-rendering: optimizeLegibility;
  \x7d
  main \x7b width: 100%; max-width: 30rem; text-align: center; \x7d
  .brand \x7b
    font-size: 0.8125rem; letter-spacing: 0.18em; text-transform: uppercase;
    color: " ++ accent ++ "; margin: 0 0 1.25rem;
  \x7d
  .brand b \x7b color: #cdd6f0; font-weight: 700; \x7d
  h1 \x7b font-size: 1.5rem; line-height: 1.25; margin: 0 0 0.75rem; color: #ffffff; \x7d
  p \x7b font-size: 1rem; line-height: 1.6; margin: 0 0 1.75rem; color: #aeb7d4; \x7d
  a.cta \x7b
    display: inline-block; padding: 0.75rem 1.5rem; border-radius: 0.625rem;
    background: " ++ accent ++ "; color: #ffffff; font-weight: 600; font-size: 1rem;
    text-decoration: none; transition: background 120ms ease;
  \x7d
  a.cta:focus-visible \x7b outline: 3px solid #9fb8ff; outline-offset: 3px; \x7d
  @media (prefers-reduced-motion: reduce) \x7b a.cta \x7b transition: none; \x7d \x7d
</style>
</head>
<body>
<main role=\"main\">
  <p class=\"brand\">" ++ brandTag ++ "</p>
  <h1>" ++ heading ++ "</h1>
  " ++ bodyHtml ++ "
</main>
</body>
</html>
"

/-- The page for an unreachable network, with a link to `connectUrl`. -/
def unreachableHtml (connectUrl : String) : String :=
  let href := escape connectUrl
  page "#3b6cf6" "#14213a" "<b>DIG</b> Network" "DIG Network unreachable"
    ("<p>We couldn't reach a DIG node or the public gateway to load this content. Connect a local DIG node to view it — it's faster and fully decentralized.</p>
  <a class=\"cta\" href=\"" ++ href ++
      "\" rel=\"noopener noreferrer\">Connect to Node</a>")

/-- The page for content that failed verification. -/
def integrityFailureHtml : String :=
  page "#e5484d" "#3a1416" "<b>DIG</b> Network · Security" "Integrity Verification Failed"
    "<p role=\"alert\">The content served for this address did not match its on-chain fingerprint. It may have been tampered with or served by an impostor, so it was <strong>not displayed</strong>. This is a security protection — the verified content could not be produced.</p>"

end Pages

/-- `ResolveOutcome::render`: what a webview is given. -/
def ResolveOutcome.render (outcome : ResolveOutcome) (connectUrl : String) : ResolvedData :=
  match outcome with
  | .success data => data
  | .integrityFailure => ⟨Pages.integrityFailureHtml.toUTF8.toList, Pages.htmlContentType⟩
  | .unreachable => ⟨(Pages.unreachableHtml connectUrl).toUTF8.toList, Pages.htmlContentType⟩

end DigUrnResolver
