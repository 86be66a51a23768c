import TreeExport.Registry.Basic

/-!
Components that show collections and numbers found at a path in the data.
-/

namespace TreeExport

namespace Registry

def chartSource : String := ofLines [
  "\"use client\";",
  "",
  "interface ChartProps \x7b",
  "  type?: \"bar\" | \"line\" | \"pie\" | \"area\";",
  "  dataPath: string;",
  "  title?: string | null;",
  "  height?: number | null;",
  "  data?: Record<string, unknown>;",
  "\x7d",
  "",
  "function getByPath(obj: unknown, path: string): unknown \x7b",
  "  if (!path) return obj;",
  "  const segments = path.startsWith(\"/\") ? path.slice(1).split(\"/\") : path.split(\"/\");",
  "  let current: unknown = obj;",
  "  for (const segment of segments) \x7b",
  "    if (current === null || current === undefined) return undefined;",
  "    if (typeof current === \"object\") \x7b",
  "      current = (current as Record<string, unknown>)[segment];",
  "    \x7d else \x7b",
  "      return undefined;",
  "    \x7d",
  "  \x7d",
  "  return current;",
  "\x7d",
  "",
  "export function Chart(\x7b title, dataPath, height, data \x7d: ChartProps) \x7b",
  "  const chartData = data",
  "    ? (getByPath(data, dataPath) as Array<\x7b label: string; value: number \x7d> | undefined)",
  "    : undefined;",
  "",
  "  if (!chartData || !Array.isArray(chartData)) \x7b",
  "    return <div style=\x7b\x7b padding: 20, color: \"var(--muted)\" \x7d\x7d>No data</div>;",
  "  \x7d",
  "",
  "  const maxValue = Math.max(...chartData.map((d) => d.value));",
  "",
  "  return (",
  "    <div>",
  "      \x7btitle && (",
  "        <h4 style=\x7b\x7b margin: \"0 0 16px\", fontSize: 14, fontWeight: 600 \x7d\x7d>",
  "          \x7btitle\x7d",
  "        </h4>",
  "      )\x7d",
  "      <div",
  "        style=\x7b\x7b display: \"flex\", gap: 8, alignItems: \"flex-end\", height: height || 120 \x7d\x7d",
  "      >",
  "        \x7bchartData.map((d, i) => (",
  "          <div",
  "            key=\x7bi\x7d",
  "            style=\x7b\x7b",
  "              flex: 1,",
  "              display: \"flex\",",
  "              flexDirection: \"column\",",
  "              alignItems: \"center\",",
  "              gap: 4,",
  "            \x7d\x7d",
  "          >",
  "            <div",
  "              style=\x7b\x7b",
  "                width: \"100%\",",
  "                height: `$\x7b(d.value / maxValue) * 100\x7d%`,",
  "                background: \"var(--foreground)\",",
  "                borderRadius: \"4px 4px 0 0\",",
  "                minHeight: 4,",
  "              \x7d\x7d",
  "            />",
  "            <span style=\x7b\x7b fontSize: 12, color: \"var(--muted)\" \x7d\x7d>",
  "              \x7bd.label\x7d",
  "            </span>",
  "          </div>",
  "        ))\x7d",
  "      </div>",
  "    </div>",
  "  );",
  "\x7d"]

def listSource : String := ofLines [
  "\"use client\";",
  "",
  "import \x7b ReactNode \x7d from \"react\";",
  "",
  "interface ListProps \x7b",
  "  dataPath: string;",
  "  emptyMessage?: string | null;",
  "  data?: Record<string, unknown>;",
  "  children?: ReactNode;",
  "\x7d",
  "",
  "function getByPath(obj: unknown, path: string): unknown \x7b",
  "  if (!path) return obj;",
  "  const segments = path.startsWith(\"/\") ? path.slice(1).split(\"/\") : path.split(\"/\");",
  "  let current: unknown = obj;",
  "  for (const segment of segments) \x7b",
  "    if (current === null || current === undefined) return undefined;",
  "    if (typeof current === \"object\") \x7b",
  "      current = (current as Record<string, unknown>)[segment];",
  "    \x7d else \x7b",
  "      return undefined;",
  "    \x7d",
  "  \x7d",
  "  return current;",
  "\x7d",
  "",
  "export function List(\x7b dataPath, emptyMessage, data, children \x7d: ListProps) \x7b",
  "  const listData = data",
  "    ? (getByPath(data, dataPath) as unknown[] | undefined)",
  "    : undefined;",
  "",
  "  if (!listData || !Array.isArray(listData) || listData.length === 0) \x7b",
  "    return (",
  "      <div style=\x7b\x7b padding: 20, color: \"var(--muted)\", textAlign: \"center\" \x7d\x7d>",
  "        \x7bemptyMessage || \"No items\"\x7d",
  "      </div>",
  "    );",
  "  \x7d",
  "",
  "  return (",
  "    <div style=\x7b\x7b display: \"flex\", flexDirection: \"column\", gap: 8 \x7d\x7d>",
  "      \x7bchildren\x7d",
  "    </div>",
  "  );",
  "\x7d"]

def metricSource : String := ofLines [
  "\"use client\";",
  "",
  "interface MetricProps \x7b",
  "  label: string;",
  "  valuePath: string;",
  "  format?: \"number\" | \"currency\" | \"percent\" | null;",
  "  trend?: \"up\" | \"down\" | \"neutral\" | null;",
  "  trendValue?: string | null;",
  "  data?: Record<string, unknown>;",
  "\x7d",
  "",
  "function getByPath(obj: unknown, path: string): unknown \x7b",
  "  if (!path) return obj;",
  "  const segments = path.startsWith(\"/\") ? path.slice(1).split(\"/\") : path.split(\"/\");",
  "  let current: unknown = obj;",
  "  for (const segment of segments) \x7b",
  "    if (current === null || current === undefined) return undefined;",
  "    if (typeof current === \"object\") \x7b",
  "      current = (current as Record<string, unknown>)[segment];",
  "    \x7d else \x7b",
  "      return undefined;",
  "    \x7d",
  "  \x7d",
  "  return current;",
  "\x7d",
  "",
  "export function Metric(\x7b label, valuePath, format, trend, trendValue, data \x7d: MetricProps) \x7b",
  "  const rawValue = data ? getByPath(data, valuePath) : undefined;",
  "",
  "  let displayValue = String(rawValue ?? \"-\");",
  "  if (format === \"currency\" && typeof rawValue === \"number\") \x7b",
  "    displayValue = new Intl.NumberFormat(\"en-US\", \x7b",
  "      style: \"currency\",",
  "      currency: \"USD\",",
  "    \x7d).format(rawValue);",
  "  \x7d else if (format === \"percent\" && typeof rawValue === \"number\") \x7b",
  "    displayValue = new Intl.NumberFormat(\"en-US\", \x7b",
  "      style: \"percent\",",
  "      minimumFractionDigits: 1,",
  "    \x7d).format(rawValue);",
  "  \x7d else if (format === \"number\" && typeof rawValue === \"number\") \x7b",
  "    displayValue = new Intl.NumberFormat(\"en-US\").format(rawValue);",
  "  \x7d",
  "",
  "  return (",
  "    <div style=\x7b\x7b display: \"flex\", flexDirection: \"column\", gap: 4 \x7d\x7d>",
  "      <span style=\x7b\x7b fontSize: 14, color: \"var(--muted)\" \x7d\x7d>\x7blabel\x7d</span>",
  "      <span style=\x7b\x7b fontSize: 32, fontWeight: 600 \x7d\x7d>\x7bdisplayValue\x7d</span>",
  "      \x7b(trend || trendValue) && (",
  "        <span",
  "          style=\x7b\x7b",
  "            fontSize: 14,",
  "            color:",
  "              trend === \"up\"",
  "                ? \"#22c55e\"",
  "                : trend === \"down\"",
  "                  ? \"#ef4444\"",
  "                  : \"var(--muted)\",",
  "          \x7d\x7d",
  "        >",
  "          \x7btrend === \"up\" ? \"+\" : trend === \"down\" ? \"-\" : \"\"\x7d",
  "          \x7btrendValue\x7d",
  "        </span>",
  "      )\x7d",
  "    </div>",
  "  );",
  "\x7d"]

def tableSource : String := ofLines [
  "\"use client\";",
  "",
  "interface TableProps \x7b",
  "  dataPath: string;",
  "  columns: Array<\x7b key: string; label: string; format?: \"text\" | \"currency\" | \"date\" | \"badge\" | null \x7d>;",
  "  data?: Record<string, unknown>;",
  "\x7d",
  "",
  "function getByPath(obj: unknown, path: string): unknown \x7b",
  "  if (!path) return obj;",
  "  const segments = path.startsWith(\"/\") ? path.slice(1).split(\"/\") : path.split(\"/\");",
  "  let current: unknown = obj;",
  "  for (const segment of segments) \x7b",
  "    if (current === null || current === undefined) return undefined;",
  "    if (typeof current === \"object\") \x7b",
  "      current = (current as Record<string, unknown>)[segment];",
  "    \x7d else \x7b",
  "      return undefined;",
  "    \x7d",
  "  \x7d",
  "  return current;",
  "\x7d",
  "",
  "export function Table(\x7b dataPath, columns, data \x7d: TableProps) \x7b",
  "  const tableData = data",
  "    ? (getByPath(data, dataPath) as Array<Record<string, unknown>> | undefined)",
  "    : undefined;",
  "",
  "  if (!tableData || !Array.isArray(tableData)) \x7b",
  "    return <div style=\x7b\x7b padding: 20, color: \"var(--muted)\" \x7d\x7d>No data</div>;",
  "  \x7d",
  "",
  "  const formatCell = (value: unknown, format?: string | null) => \x7b",
  "    if (value === null || value === undefined) return \"-\";",
  "    if (format === \"currency\" && typeof value === \"number\") \x7b",
  "      return new Intl.NumberFormat(\"en-US\", \x7b",
  "        style: \"currency\",",
  "        currency: \"USD\",",
  "      \x7d).format(value);",
  "    \x7d",
  "    if (format === \"date\" && typeof value === \"string\") \x7b",
  "      return new Date(value).toLocaleDateString();",
  "    \x7d",
  "    if (format === \"badge\") \x7b",
  "      return (",
  "        <span",
  "          style=\x7b\x7b",
  "            padding: \"2px 8px\",",
  "            borderRadius: 12,",
  "            fontSize: 12,",
  "            fontWeight: 500,",
  "            background: \"var(--border)\",",
  "            color: \"var(--foreground)\",",
  "          \x7d\x7d",
  "        >",
  "          \x7bString(value)\x7d",
  "        </span>",
  "      );",
  "    \x7d",
  "    return String(value);",
  "  \x7d;",
  "",
  "  return (",
  "    <table style=\x7b\x7b width: \"100%\", borderCollapse: \"collapse\" \x7d\x7d>",
  "      <thead>",
  "        <tr>",
  "          \x7bcolumns.map((col) => (",
  "            <th",
  "              key=\x7bcol.key\x7d",
  "              style=\x7b\x7b",
  "                textAlign: \"left\",",
  "                padding: \"12px 8px\",",
  "                borderBottom: \"1px solid var(--border)\",",
  "                fontSize: 12,",
  "                fontWeight: 500,",
  "                color: \"var(--muted)\",",
  "                textTransform: \"uppercase\",",
  "                letterSpacing: \"0.05em\",",
  "              \x7d\x7d",
  "            >",
  "              \x7bcol.label\x7d",
  "            </th>",
  "          ))\x7d",
  "        </tr>",
  "      </thead>",
  "      <tbody>",
  "        \x7btableData.map((row, i) => (",
  "          <tr key=\x7bi\x7d>",
  "            \x7bcolumns.map((col) => (",
  "              <td",
  "                key=\x7bcol.key\x7d",
  "                style=\x7b\x7b",
  "                  padding: \"12px 8px\",",
  "                  borderBottom: \"1px solid var(--border)\",",
  "                  fontSize: 14,",
  "                \x7d\x7d",
  "              >",
  "                \x7bformatCell(row[col.key], col.format)\x7d",
  "              </td>",
  "            ))\x7d",
  "          </tr>",
  "        ))\x7d",
  "      </tbody>",
  "    </table>",
  "  );",
  "\x7d"]

end Registry

end TreeExport
