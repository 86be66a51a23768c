import TreeExport.Registry.Basic

/-!
Components that arrange or set off their children and texts.
-/

namespace TreeExport

namespace Registry

def cardSource : String := ofLines [
  "\"use client\";",
  "",
  "import \x7b ReactNode \x7d from \"react\";",
  "",
  "interface CardProps \x7b",
  "  title?: string | null;",
  "  description?: string | null;",
  "  padding?: \"sm\" | \"md\" | \"lg\" | null;",
  "  children?: ReactNode;",
  "\x7d",
  "",
  "export function Card(\x7b title, description, padding, children \x7d: CardProps) \x7b",
  "  const paddings: Record<string, string> = \x7b",
  "    sm: \"12px\",",
  "    md: \"16px\",",
  "    lg: \"24px\",",
  "  \x7d;",
  "",
  "  return (",
  "    <div",
  "      style=\x7b\x7b",
  "        background: \"var(--card)\",",
  "        border: \"1px solid var(--border)\",",
  "        borderRadius: \"var(--radius)\",",
  "      \x7d\x7d",
  "    >",
  "      \x7b(title || description) && (",
  "        <div",
  "          style=\x7b\x7b",
  "            padding: \"16px 20px\",",
  "            borderBottom: \"1px solid var(--border)\",",
  "          \x7d\x7d",
  "        >",
  "          \x7btitle && (",
  "            <h3 style=\x7b\x7b margin: 0, fontSize: 16, fontWeight: 600 \x7d\x7d>",
  "              \x7btitle\x7d",
  "            </h3>",
  "          )\x7d",
  "          \x7bdescription && (",
  "            <p style=\x7b\x7b margin: \"4px 0 0\", fontSize: 14, color: \"var(--muted)\" \x7d\x7d>",
  "              \x7bdescription\x7d",
  "            </p>",
  "          )\x7d",
  "        </div>",
  "      )\x7d",
  "      <div style=\x7b\x7b padding: paddings[padding || \"md\"] || \"16px\" \x7d\x7d>",
  "        \x7bchildren\x7d",
  "      </div>",
  "    </div>",
  "  );",
  "\x7d"]

def dividerSource : String := ofLines [
  "\"use client\";",
  "",
  "interface DividerProps \x7b",
  "  label?: string | null;",
  "\x7d",
  "",
  "export function Divider(\x7b label \x7d: DividerProps) \x7b",
  "  if (label) \x7b",
  "    return (",
  "      <div style=\x7b\x7b display: \"flex\", alignItems: \"center\", gap: 16 \x7d\x7d>",
  "        <div style=\x7b\x7b flex: 1, height: 1, background: \"var(--border)\" \x7d\x7d />",
  "        <span style=\x7b\x7b fontSize: 12, color: \"var(--muted)\" \x7d\x7d>\x7blabel\x7d</span>",
  "        <div style=\x7b\x7b flex: 1, height: 1, background: \"var(--border)\" \x7d\x7d />",
  "      </div>",
  "    );",
  "  \x7d",
  "",
  "  return <hr style=\x7b\x7b border: \"none\", height: 1, background: \"var(--border)\", margin: \"16px 0\" \x7d\x7d />;",
  "\x7d"]

def emptySource : String := ofLines [
  "\"use client\";",
  "",
  "interface EmptyProps \x7b",
  "  title: string;",
  "  description?: string | null;",
  "  action?: string | null;",
  "  actionLabel?: string | null;",
  "\x7d",
  "",
  "export function Empty(\x7b title, description \x7d: EmptyProps) \x7b",
  "  return (",
  "    <div style=\x7b\x7b textAlign: \"center\", padding: \"40px 20px\" \x7d\x7d>",
  "      <div style=\x7b\x7b fontSize: 16, fontWeight: 500 \x7d\x7d>\x7btitle\x7d</div>",
  "      \x7bdescription && (",
  "        <div style=\x7b\x7b fontSize: 14, color: \"var(--muted)\", marginTop: 8 \x7d\x7d>",
  "          \x7bdescription\x7d",
  "        </div>",
  "      )\x7d",
  "    </div>",
  "  );",
  "\x7d"]

def gridSource : String := ofLines [
  "\"use client\";",
  "",
  "import \x7b ReactNode \x7d from \"react\";",
  "",
  "interface GridProps \x7b",
  "  columns?: number | null;",
  "  gap?: \"sm\" | \"md\" | \"lg\" | null;",
  "  children?: ReactNode;",
  "\x7d",
  "",
  "export function Grid(\x7b columns, gap, children \x7d: GridProps) \x7b",
  "  const gaps: Record<string, string> = \x7b",
  "    sm: \"8px\",",
  "    md: \"16px\",",
  "    lg: \"24px\",",
  "  \x7d;",
  "",
  "  return (",
  "    <div",
  "      style=\x7b\x7b",
  "        display: \"grid\",",
  "        gridTemplateColumns: `repeat($\x7bcolumns || 2\x7d, 1fr)`,",
  "        gap: gaps[gap || \"md\"],",
  "      \x7d\x7d",
  "    >",
  "      \x7bchildren\x7d",
  "    </div>",
  "  );",
  "\x7d"]

def headingSource : String := ofLines [
  "\"use client\";",
  "",
  "interface HeadingProps \x7b",
  "  text: string;",
  "  level?: \"h1\" | \"h2\" | \"h3\" | \"h4\" | null;",
  "\x7d",
  "",
  "export function Heading(\x7b text, level \x7d: HeadingProps) \x7b",
  "  const sizes: Record<string, \x7b fontSize: number; fontWeight: number \x7d> = \x7b",
  "    h1: \x7b fontSize: 32, fontWeight: 700 \x7d,",
  "    h2: \x7b fontSize: 24, fontWeight: 600 \x7d,",
  "    h3: \x7b fontSize: 20, fontWeight: 600 \x7d,",
  "    h4: \x7b fontSize: 16, fontWeight: 600 \x7d,",
  "  \x7d;",
  "",
  "  const style = sizes[level || \"h2\"];",
  "  const Tag = (level || \"h2\") as keyof JSX.IntrinsicElements;",
  "",
  "  return (",
  "    <Tag style=\x7b\x7b margin: 0, ...style \x7d\x7d>",
  "      \x7btext\x7d",
  "    </Tag>",
  "  );",
  "\x7d"]

def stackSource : String := ofLines [
  "\"use client\";",
  "",
  "import \x7b ReactNode \x7d from \"react\";",
  "",
  "interface StackProps \x7b",
  "  direction?: \"horizontal\" | \"vertical\" | null;",
  "  gap?: \"sm\" | \"md\" | \"lg\" | null;",
  "  align?: \"start\" | \"center\" | \"end\" | \"stretch\" | null;",
  "  children?: ReactNode;",
  "\x7d",
  "",
  "export function Stack(\x7b direction, gap, align, children \x7d: StackProps) \x7b",
  "  const gaps: Record<string, string> = \x7b",
  "    sm: \"8px\",",
  "    md: \"16px\",",
  "    lg: \"24px\",",
  "  \x7d;",
  "  const alignments: Record<string, string> = \x7b",
  "    start: \"flex-start\",",
  "    center: \"center\",",
  "    end: \"flex-end\",",
  "    stretch: \"stretch\",",
  "  \x7d;",
  "",
  "  return (",
  "    <div",
  "      style=\x7b\x7b",
  "        display: \"flex\",",
  "        flexDirection: direction === \"horizontal\" ? \"row\" : \"column\",",
  "        gap: gaps[gap || \"md\"],",
  "        alignItems: alignments[align || \"stretch\"],",
  "      \x7d\x7d",
  "    >",
  "      \x7bchildren\x7d",
  "    </div>",
  "  );",
  "\x7d"]

def textSource : String := ofLines [
  "\"use client\";",
  "",
  "interface TextProps \x7b",
  "  content: string;",
  "  variant?: \"body\" | \"caption\" | \"label\" | null;",
  "  color?: \"default\" | \"muted\" | \"success\" | \"warning\" | \"danger\" | null;",
  "\x7d",
  "",
  "export function Text(\x7b content, variant, color \x7d: TextProps) \x7b",
  "  const sizes: Record<string, number> = \x7b",
  "    body: 14,",
  "    caption: 12,",
  "    label: 13,",
  "  \x7d;",
  "",
  "  const colors: Record<string, string> = \x7b",
  "    default: \"var(--foreground)\",",
  "    muted: \"var(--muted)\",",
  "    success: \"#22c55e\",",
  "    warning: \"#eab308\",",
  "    danger: \"#ef4444\",",
  "  \x7d;",
  "",
  "  return (",
  "    <p",
  "      style=\x7b\x7b",
  "        margin: 0,",
  "        fontSize: sizes[variant || \"body\"],",
  "        color: colors[color || \"default\"],",
  "      \x7d\x7d",
  "    >",
  "      \x7bcontent\x7d",
  "    </p>",
  "  );",
  "\x7d"]

end Registry

end TreeExport
