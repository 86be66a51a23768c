import TreeExport.Path
import TreeExport.Scaffold.Template

/-!
The templates of the files that every generated project has.
-/

namespace TreeExport

namespace Scaffold

def manifest : List Part := [
  .lines ["\x7b"],
  .text "  \"name\": ",
  .literal "project_name",
  .lines [
    ",",
    "  \"version\": \"0.1.0\",",
    "  \"private\": true,",
    "  \"scripts\": \x7b",
    "    \"dev\": \"next dev\",",
    "    \"build\": \"next build\",",
    "    \"start\": \"next start\",",
    "    \"lint\": \"next lint\"",
    "  \x7d,",
    "  \"dependencies\": \x7b",
    "    \"next\": \"^14.2.0\",",
    "    \"react\": \"^18.3.0\",",
    "    \"react-dom\": \"^18.3.0\"",
    "  \x7d,",
    "  \"devDependencies\": \x7b",
    "    \"@types/node\": \"^20.0.0\",",
    "    \"@types/react\": \"^18.3.0\",",
    "    \"@types/react-dom\": \"^18.3.0\",",
    "    \"typescript\": \"^5.4.0\"",
    "  \x7d",
    "\x7d"]]

def buildSettings : List Part := [
  .lines [
    "/** @type \x7bimport('next').NextConfig\x7d */",
    "module.exports = \x7b",
    "  reactStrictMode: true,",
    "\x7d;"]]

def compilerSettings : List Part := [
  .lines [
    "\x7b",
    "  \"compilerOptions\": \x7b",
    "    \"target\": \"ES2017\",",
    "    \"lib\": [\"dom\", \"dom.iterable\", \"esnext\"],",
    "    \"allowJs\": true,",
    "    \"skipLibCheck\": true,",
    "    \"strict\": true,",
    "    \"noEmit\": true,",
    "    \"esModuleInterop\": true,",
    "    \"module\": \"esnext\",",
    "    \"moduleResolution\": \"bundler\",",
    "    \"resolveJsonModule\": true,",
    "    \"isolatedModules\": true,",
    "    \"jsx\": \"preserve\",",
    "    \"incremental\": true,",
    "    \"plugins\": [\x7b \"name\": \"next\" \x7d],",
    "    \"paths\": \x7b \"@/*\": [\"./*\"] \x7d",
    "  \x7d,",
    "  \"include\": [\"next-env.d.ts\", \"**/*.ts\", \"**/*.tsx\", \".next/types/**/*.ts\"],",
    "  \"exclude\": [\"node_modules\"]",
    "\x7d"]]

def globalStyles : List Part := [
  .lines [
    "* \x7b",
    "  box-sizing: border-box;",
    "\x7d",
    "",
    ":root \x7b",
    "  --background: #000;",
    "  --foreground: #fafafa;",
    "  --card: #0a0a0a;",
    "  --border: #262626;",
    "  --muted: #a3a3a3;",
    "  --radius: 8px;",
    "\x7d",
    "",
    "html,",
    "body \x7b",
    "  margin: 0;",
    "  padding: 0;",
    "  font-family: system-ui, -apple-system, BlinkMacSystemFont, 'Segoe UI', Roboto, sans-serif;",
    "  background-color: var(--background);",
    "  color: var(--foreground);",
    "  -webkit-font-smoothing: antialiased;",
    "\x7d",
    "",
    "button \x7b",
    "  font-family: inherit;",
    "  cursor: pointer;",
    "\x7d",
    "",
    "input,",
    "select,",
    "textarea \x7b",
    "  font-family: inherit;",
    "\x7d",
    "",
    "::selection \x7b",
    "  background: var(--foreground);",
    "  color: var(--background);",
    "\x7d"]]

def layout : List Part := [
  .lines [
    "import type \x7b Metadata \x7d from \"next\";",
    "import \"./globals.css\";",
    "",
    "export const metadata: Metadata = \x7b"],
  .text "  title: ",
  .literal "project_name",
  .lines [
    ",",
    "  description: \"Generated dashboard\",",
    "\x7d;",
    "",
    "export default function RootLayout(\x7b",
    "  children,",
    "\x7d: \x7b",
    "  children: React.ReactNode;",
    "\x7d) \x7b",
    "  return (",
    "    <html lang=\"en\">",
    "      <body>\x7bchildren\x7d</body>",
    "    </html>",
    "  );",
    "\x7d"]]

def index : List Part := [
  .forEach "name" "components" [
    .text "export \x7b ",
    .shown "name",
    .text " \x7d from \"./",
    .moduleName "name",
    .lines ["\";"]]]

def page : List Part := [
  .lines [
    "\"use client\";",
    ""],
  .whenTrue "components" [
    .text "import \x7b ",
    .joined "components" ", ",
    .lines [
      " \x7d from \"@/components/ui\";",
      ""]],
  .text "const data = ",
  .shown "data_literal",
  .lines [
    ";",
    "",
    "export default function Page() \x7b",
    "  return (",
    "    <div style=\x7b\x7b maxWidth: 960, margin: \"0 auto\", padding: \"48px 24px\" \x7d\x7d>"],
  .shown "markup",
  .lines [
    "",
    "    </div>",
    "  );",
    "\x7d"]]

def readme : List Part := [
  .text "# ",
  .shown "project_name",
  .lines [
    "",
    "",
    "This dashboard was generated from a json-render UI tree.",
    "",
    "## Getting Started",
    "",
    "```bash",
    "npm install",
    "npm run dev",
    "```",
    "",
    "Open [http://localhost:3000](http://localhost:3000) to view the dashboard.",
    "",
    "## Project Structure",
    "",
    "- `app/page.tsx` - Main dashboard page",
    "- `components/ui/` - UI components",
    "- `app/globals.css` - Global styles"],
  .whenTrue "components" [
    .lines [
      "",
      "## Components",
      ""],
    .forEach "name" "components" [
      .text "- `",
      .shown "name",
      .text "` - `components/ui/",
      .moduleName "name",
      .lines [".tsx`"]]]]

def packaged : Keyed (List Part) := [
  ("package.json.j2", manifest),
  ("next.config.js.j2", buildSettings),
  ("tsconfig.json.j2", compilerSettings),
  ("globals.css.j2", globalStyles),
  ("layout.tsx.j2", layout),
  ("index.ts.j2", index),
  ("page.tsx.j2", page),
  ("README.md.j2", readme)]

/-- The template that a name stands for. Empty segments and `.` in the name do not count. -/
def find? (name : String) : Option (List Part) :=
  let segments := (Text.split '/' name.toList).map String.ofList
  match segments.filter fun segment => segment != "" && segment != "." with
  | [single] => packaged.get? single
  | _ => none

def names : List String :=
  Text.sortedSet packaged.keys

end Scaffold

end TreeExport
