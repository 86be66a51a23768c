import TreeExport.Registry.Basic

/-!
Components for notices and input.
-/

namespace TreeExport

namespace Registry

def alertSource : String := ofLines [
  "\"use client\";",
  "",
  "interface AlertProps \x7b",
  "  type: \"info\" | \"success\" | \"warning\" | \"error\";",
  "  title: string;",
  "  message?: string | null;",
  "  dismissible?: boolean | null;",
  "\x7d",
  "",
  "export function Alert(\x7b type, title, message \x7d: AlertProps) \x7b",
  "  const colors: Record<string, string> = \x7b",
  "    info: \"var(--muted)\",",
  "    success: \"#22c55e\",",
  "    warning: \"#eab308\",",
  "    error: \"#ef4444\",",
  "  \x7d;",
  "",
  "  return (",
  "    <div",
  "      style=\x7b\x7b",
  "        padding: \"12px 16px\",",
  "        borderRadius: \"var(--radius)\",",
  "        background: \"var(--card)\",",
  "        border: \"1px solid var(--border)\",",
  "        borderLeftWidth: 4,",
  "        borderLeftColor: colors[type],",
  "      \x7d\x7d",
  "    >",
  "      <div style=\x7b\x7b fontWeight: 500, fontSize: 14 \x7d\x7d>\x7btitle\x7d</div>",
  "      \x7bmessage && (",
  "        <div style=\x7b\x7b fontSize: 13, color: \"var(--muted)\", marginTop: 4 \x7d\x7d>",
  "          \x7bmessage\x7d",
  "        </div>",
  "      )\x7d",
  "    </div>",
  "  );",
  "\x7d"]

def badgeSource : String := ofLines [
  "\"use client\";",
  "",
  "interface BadgeProps \x7b",
  "  text: string;",
  "  variant?: \"default\" | \"success\" | \"warning\" | \"danger\" | \"info\" | null;",
  "\x7d",
  "",
  "export function Badge(\x7b text, variant \x7d: BadgeProps) \x7b",
  "  const colors: Record<string, \x7b bg: string; fg: string \x7d> = \x7b",
  "    default: \x7b bg: \"var(--border)\", fg: \"var(--foreground)\" \x7d,",
  "    success: \x7b bg: \"#22c55e20\", fg: \"#22c55e\" \x7d,",
  "    warning: \x7b bg: \"#eab30820\", fg: \"#eab308\" \x7d,",
  "    danger: \x7b bg: \"#ef444420\", fg: \"#ef4444\" \x7d,",
  "    info: \x7b bg: \"#3b82f620\", fg: \"#3b82f6\" \x7d,",
  "  \x7d;",
  "",
  "  const \x7b bg, fg \x7d = colors[variant || \"default\"];",
  "",
  "  return (",
  "    <span",
  "      style=\x7b\x7b",
  "        display: \"inline-block\",",
  "        padding: \"2px 8px\",",
  "        borderRadius: 12,",
  "        fontSize: 12,",
  "        fontWeight: 500,",
  "        background: bg,",
  "        color: fg,",
  "      \x7d\x7d",
  "    >",
  "      \x7btext\x7d",
  "    </span>",
  "  );",
  "\x7d"]

def buttonSource : String := ofLines [
  "\"use client\";",
  "",
  "interface ButtonProps \x7b",
  "  label: string;",
  "  variant?: \"primary\" | \"secondary\" | \"danger\" | \"ghost\" | null;",
  "  size?: \"sm\" | \"md\" | \"lg\" | null;",
  "  action?: string;",
  "  disabled?: boolean | null;",
  "  onClick?: () => void;",
  "\x7d",
  "",
  "export function Button(\x7b label, variant, disabled, onClick \x7d: ButtonProps) \x7b",
  "  const variants: Record<string, React.CSSProperties> = \x7b",
  "    primary: \x7b",
  "      background: \"var(--foreground)\",",
  "      color: \"var(--background)\",",
  "      border: \"none\",",
  "    \x7d,",
  "    secondary: \x7b",
  "      background: \"transparent\",",
  "      color: \"var(--foreground)\",",
  "      border: \"1px solid var(--border)\",",
  "    \x7d,",
  "    danger: \x7b background: \"#dc2626\", color: \"#fff\", border: \"none\" \x7d,",
  "    ghost: \x7b background: \"transparent\", color: \"var(--muted)\", border: \"none\" \x7d,",
  "  \x7d;",
  "",
  "  return (",
  "    <button",
  "      onClick=\x7bonClick\x7d",
  "      disabled=\x7b!!disabled\x7d",
  "      style=\x7b\x7b",
  "        padding: \"8px 16px\",",
  "        borderRadius: \"var(--radius)\",",
  "        fontSize: 14,",
  "        fontWeight: 500,",
  "        opacity: disabled ? 0.5 : 1,",
  "        ...variants[variant || \"primary\"],",
  "      \x7d\x7d",
  "    >",
  "      \x7blabel\x7d",
  "    </button>",
  "  );",
  "\x7d"]

def datePickerSource : String := ofLines [
  "\"use client\";",
  "",
  "interface DatePickerProps \x7b",
  "  label?: string | null;",
  "  bindPath: string;",
  "  placeholder?: string | null;",
  "  value?: string;",
  "  onChange?: (value: string) => void;",
  "\x7d",
  "",
  "export function DatePicker(\x7b label, placeholder, value, onChange \x7d: DatePickerProps) \x7b",
  "  return (",
  "    <div>",
  "      \x7blabel && (",
  "        <label style=\x7b\x7b display: \"block\", fontSize: 13, marginBottom: 4, color: \"var(--muted)\" \x7d\x7d>",
  "          \x7blabel\x7d",
  "        </label>",
  "      )\x7d",
  "      <input",
  "        type=\"date\"",
  "        value=\x7bvalue || \"\"\x7d",
  "        onChange=\x7b(e) => onChange?.(e.target.value)\x7d",
  "        placeholder=\x7bplaceholder || \"\"\x7d",
  "        style=\x7b\x7b",
  "          width: \"100%\",",
  "          padding: \"8px 12px\",",
  "          background: \"var(--card)\",",
  "          border: \"1px solid var(--border)\",",
  "          borderRadius: \"var(--radius)\",",
  "          color: \"var(--foreground)\",",
  "          fontSize: 14,",
  "        \x7d\x7d",
  "      />",
  "    </div>",
  "  );",
  "\x7d"]

def selectSource : String := ofLines [
  "\"use client\";",
  "",
  "interface SelectProps \x7b",
  "  label?: string | null;",
  "  bindPath: string;",
  "  options: Array<\x7b value: string; label: string \x7d>;",
  "  placeholder?: string | null;",
  "  value?: string;",
  "  onChange?: (value: string) => void;",
  "\x7d",
  "",
  "export function Select(\x7b label, options, placeholder, value, onChange \x7d: SelectProps) \x7b",
  "  return (",
  "    <div>",
  "      \x7blabel && (",
  "        <label style=\x7b\x7b display: \"block\", fontSize: 13, marginBottom: 4, color: \"var(--muted)\" \x7d\x7d>",
  "          \x7blabel\x7d",
  "        </label>",
  "      )\x7d",
  "      <select",
  "        value=\x7bvalue || \"\"\x7d",
  "        onChange=\x7b(e) => onChange?.(e.target.value)\x7d",
  "        style=\x7b\x7b",
  "          width: \"100%\",",
  "          padding: \"8px 12px\",",
  "          background: \"var(--card)\",",
  "          border: \"1px solid var(--border)\",",
  "          borderRadius: \"var(--radius)\",",
  "          color: \"var(--foreground)\",",
  "          fontSize: 14,",
  "        \x7d\x7d",
  "      >",
  "        \x7bplaceholder && <option value=\"\">\x7bplaceholder\x7d</option>\x7d",
  "        \x7boptions.map((opt) => (",
  "          <option key=\x7bopt.value\x7d value=\x7bopt.value\x7d>",
  "            \x7bopt.label\x7d",
  "          </option>",
  "        ))\x7d",
  "      </select>",
  "    </div>",
  "  );",
  "\x7d"]

end Registry

end TreeExport
