import TreeExport.Registry.Basic

/-!
Components that show the entries of the live feeds.
-/

namespace TreeExport

namespace Registry

def cryptoCardSource : String := ofLines [
  "\"use client\";",
  "",
  "interface CryptoCardProps \x7b",
  "  symbol: string;",
  "  dataPath: string;",
  "  data?: Record<string, unknown>;",
  "\x7d",
  "",
  "interface CryptoQuote \x7b",
  "  price?: number;",
  "  change?: number;",
  "  change_24h?: number;",
  "\x7d",
  "",
  "function getByPath(obj: unknown, path: string): unknown \x7b",
  "  if (!path) return obj;",
  "  const segments = path.startsWith(\"/\") ? path.slice(1).split(\"/\") : path.split(\"/\");",
  "  let current: unknown = obj;",
  "  for (const segment of segments) \x7b",
  "    if (current === null || current === undefined) return undefined;",
  "    if (typeof current === \"object\") \x7b",
  "      current = (current as Record<string, unknown>)[segment];",
  "    \x7d else \x7b",
  "      return undefined;",
  "    \x7d",
  "  \x7d",
  "  return current;",
  "\x7d",
  "",
  "export function CryptoCard(\x7b symbol, dataPath, data \x7d: CryptoCardProps) \x7b",
  "  const quote = data",
  "    ? (getByPath(data, dataPath) as CryptoQuote | undefined)",
  "    : undefined;",
  "",
  "  const price =",
  "    typeof quote?.price === \"number\"",
  "      ? new Intl.NumberFormat(\"en-US\", \x7b style: \"currency\", currency: \"USD\" \x7d).format(quote.price)",
  "      : \"-\";",
  "  const change = typeof quote?.change === \"number\" ? quote.change : undefined;",
  "  const positive = (change ?? 0) >= 0;",
  "  const changeColor = change === undefined ? \"var(--muted)\" : positive ? \"#22c55e\" : \"#ef4444\";",
  "",
  "  return (",
  "    <div",
  "      style=\x7b\x7b",
  "        background:",
  "          \"linear-gradient(135deg, var(--card) 0%, rgba(99, 102, 241, 0.1) 100%)\",",
  "        border: \"1px solid var(--border)\",",
  "        borderRadius: \"var(--radius)\",",
  "        padding: \"20px\",",
  "        position: \"relative\",",
  "        overflow: \"hidden\",",
  "      \x7d\x7d",
  "    >",
  "      <div",
  "        style=\x7b\x7b",
  "          display: \"flex\",",
  "          justifyContent: \"space-between\",",
  "          alignItems: \"start\",",
  "          marginBottom: 16,",
  "        \x7d\x7d",
  "      >",
  "        <div>",
  "          <div style=\x7b\x7b fontSize: 14, color: \"var(--muted)\", marginBottom: 4 \x7d\x7d>",
  "            \x7bsymbol\x7d",
  "          </div>",
  "          <div style=\x7b\x7b fontSize: 28, fontWeight: 600, color: \"var(--foreground)\" \x7d\x7d>",
  "            \x7bprice\x7d",
  "          </div>",
  "        </div>",
  "        \x7bchange !== undefined && (",
  "          <div",
  "            style=\x7b\x7b",
  "              padding: \"4px 12px\",",
  "              borderRadius: 12,",
  "              fontSize: 12,",
  "              fontWeight: 500,",
  "              background: positive ? \"rgba(34, 197, 94, 0.1)\" : \"rgba(239, 68, 68, 0.1)\",",
  "              color: changeColor,",
  "            \x7d\x7d",
  "          >",
  "            \x7bpositive ? \"+\" : \"\"\x7d",
  "            \x7bchange.toFixed(2)\x7d%",
  "          </div>",
  "        )\x7d",
  "      </div>",
  "",
  "      \x7btypeof quote?.change_24h === \"number\" && (",
  "        <div style=\x7b\x7b fontSize: 13, color: \"var(--muted)\" \x7d\x7d>",
  "          24h Change:\x7b\" \"\x7d",
  "          <span style=\x7b\x7b color: changeColor \x7d\x7d>",
  "            \x7bnew Intl.NumberFormat(\"en-US\", \x7b",
  "              style: \"currency\",",
  "              currency: \"USD\",",
  "              signDisplay: \"always\",",
  "            \x7d).format(quote.change_24h)\x7d",
  "          </span>",
  "        </div>",
  "      )\x7d",
  "    </div>",
  "  );",
  "\x7d"]

def trendingReposSource : String := ofLines [
  "\"use client\";",
  "",
  "interface TrendingReposProps \x7b",
  "  language?: string | null;",
  "  dataPath: string;",
  "  data?: Record<string, unknown>;",
  "\x7d",
  "",
  "interface Repo \x7b",
  "  name: string;",
  "  full_name?: string;",
  "  stars?: number;",
  "  language?: string;",
  "  url?: string;",
  "\x7d",
  "",
  "function getByPath(obj: unknown, path: string): unknown \x7b",
  "  if (!path) return obj;",
  "  const segments = path.startsWith(\"/\") ? path.slice(1).split(\"/\") : path.split(\"/\");",
  "  let current: unknown = obj;",
  "  for (const segment of segments) \x7b",
  "    if (current === null || current === undefined) return undefined;",
  "    if (typeof current === \"object\") \x7b",
  "      current = (current as Record<string, unknown>)[segment];",
  "    \x7d else \x7b",
  "      return undefined;",
  "    \x7d",
  "  \x7d",
  "  return current;",
  "\x7d",
  "",
  "const LANGUAGE_COLORS: Record<string, string> = \x7b",
  "  JavaScript: \"#f1e05a\",",
  "  TypeScript: \"#3178c6\",",
  "  Python: \"#3572A5\",",
  "  Rust: \"#dea584\",",
  "  Go: \"#00ADD8\",",
  "\x7d;",
  "",
  "function formatStars(stars?: number): string \x7b",
  "  if (typeof stars !== \"number\") return \"-\";",
  "  return stars >= 1000 ? `$\x7bMath.round(stars / 1000)\x7dk` : String(stars);",
  "\x7d",
  "",
  "export function TrendingRepos(\x7b language, dataPath, data \x7d: TrendingReposProps) \x7b",
  "  const repos = data ? (getByPath(data, dataPath) as Repo[] | undefined) : undefined;",
  "  const visible = Array.isArray(repos)",
  "    ? repos.filter((repo) => !language || repo.language === language)",
  "    : [];",
  "",
  "  return (",
  "    <div",
  "      style=\x7b\x7b",
  "        background: \"var(--card)\",",
  "        border: \"1px solid var(--border)\",",
  "        borderRadius: \"var(--radius)\",",
  "        padding: \"20px\",",
  "      \x7d\x7d",
  "    >",
  "      <div style=\x7b\x7b marginBottom: 16, display: \"flex\", alignItems: \"center\", gap: 8 \x7d\x7d>",
  "        <span style=\x7b\x7b fontSize: 20 \x7d\x7d>🔥</span>",
  "        <h3 style=\x7b\x7b margin: 0, fontSize: 18, fontWeight: 600 \x7d\x7d>",
  "          Trending Repositories",
  "        </h3>",
  "      </div>",
  "",
  "      \x7bvisible.length === 0 ? (",
  "        <div style=\x7b\x7b padding: 20, color: \"var(--muted)\", textAlign: \"center\" \x7d\x7d>",
  "          No repositories",
  "        </div>",
  "      ) : (",
  "        <div style=\x7b\x7b display: \"flex\", flexDirection: \"column\", gap: 12 \x7d\x7d>",
  "          \x7bvisible.map((repo, i) => (",
  "            <a",
  "              key=\x7brepo.full_name ?? i\x7d",
  "              href=\x7brepo.url\x7d",
  "              style=\x7b\x7b",
  "                padding: \"12px\",",
  "                background: \"rgba(99, 102, 241, 0.05)\",",
  "                borderRadius: 8,",
  "                border: \"1px solid rgba(99, 102, 241, 0.1)\",",
  "                color: \"inherit\",",
  "                textDecoration: \"none\",",
  "                display: \"flex\",",
  "                justifyContent: \"space-between\",",
  "                alignItems: \"center\",",
  "              \x7d\x7d",
  "            >",
  "              <div>",
  "                <div style=\x7b\x7b fontWeight: 500, marginBottom: 4 \x7d\x7d>\x7brepo.name\x7d</div>",
  "                <div",
  "                  style=\x7b\x7b",
  "                    display: \"flex\",",
  "                    alignItems: \"center\",",
  "                    gap: 8,",
  "                    fontSize: 13,",
  "                    color: \"var(--muted)\",",
  "                  \x7d\x7d",
  "                >",
  "                  <span",
  "                    style=\x7b\x7b",
  "                      width: 10,",
  "                      height: 10,",
  "                      borderRadius: \"50%\",",
  "                      background: LANGUAGE_COLORS[repo.language ?? \"\"] ?? \"var(--muted)\",",
  "                      display: \"inline-block\",",
  "                    \x7d\x7d",
  "                  />",
  "                  \x7brepo.language ?? \"Unknown\"\x7d",
  "                </div>",
  "              </div>",
  "              <div style=\x7b\x7b fontSize: 14 \x7d\x7d>⭐ \x7bformatStars(repo.stars)\x7d</div>",
  "            </a>",
  "          ))\x7d",
  "        </div>",
  "      )\x7d",
  "    </div>",
  "  );",
  "\x7d"]

def weatherWidgetSource : String := ofLines [
  "\"use client\";",
  "",
  "interface WeatherWidgetProps \x7b",
  "  location: string;",
  "  dataPath: string;",
  "  data?: Record<string, unknown>;",
  "\x7d",
  "",
  "interface WeatherReading \x7b",
  "  temp?: number;",
  "  condition?: string;",
  "  wind_speed?: number;",
  "  humidity?: number;",
  "\x7d",
  "",
  "function getByPath(obj: unknown, path: string): unknown \x7b",
  "  if (!path) return obj;",
  "  const segments = path.startsWith(\"/\") ? path.slice(1).split(\"/\") : path.split(\"/\");",
  "  let current: unknown = obj;",
  "  for (const segment of segments) \x7b",
  "    if (current === null || current === undefined) return undefined;",
  "    if (typeof current === \"object\") \x7b",
  "      current = (current as Record<string, unknown>)[segment];",
  "    \x7d else \x7b",
  "      return undefined;",
  "    \x7d",
  "  \x7d",
  "  return current;",
  "\x7d",
  "",
  "const ICONS: Record<string, string> = \x7b",
  "  Clear: \"☀️\",",
  "  \"Partly Cloudy\": \"⛅\",",
  "  Foggy: \"🌫️\",",
  "  Rainy: \"🌧️\",",
  "  Snowy: \"❄️\",",
  "  Showers: \"🌦️\",",
  "  Stormy: \"⛈️\",",
  "\x7d;",
  "",
  "export function WeatherWidget(\x7b location, dataPath, data \x7d: WeatherWidgetProps) \x7b",
  "  const reading = data",
  "    ? (getByPath(data, dataPath) as WeatherReading | undefined)",
  "    : undefined;",
  "",
  "  const temp = typeof reading?.temp === \"number\" ? `$\x7bMath.round(reading.temp)\x7d°` : \"-\";",
  "  const condition = reading?.condition ?? \"Unknown\";",
  "",
  "  return (",
  "    <div",
  "      style=\x7b\x7b",
  "        background: \"linear-gradient(135deg, #667eea 0%, #764ba2 100%)\",",
  "        borderRadius: \"var(--radius)\",",
  "        padding: \"24px\",",
  "        color: \"white\",",
  "        position: \"relative\",",
  "        overflow: \"hidden\",",
  "      \x7d\x7d",
  "    >",
  "      <div style=\x7b\x7b fontSize: 16, marginBottom: 8, opacity: 0.9 \x7d\x7d>\x7blocation\x7d</div>",
  "      <div",
  "        style=\x7b\x7b",
  "          display: \"flex\",",
  "          alignItems: \"center\",",
  "          gap: 16,",
  "          marginBottom: 16,",
  "        \x7d\x7d",
  "      >",
  "        <div style=\x7b\x7b fontSize: 48, fontWeight: 600 \x7d\x7d>\x7btemp\x7d</div>",
  "        <div>",
  "          <div style=\x7b\x7b fontSize: 18, marginBottom: 4 \x7d\x7d>\x7bICONS[condition] ?? \"🌡️\"\x7d</div>",
  "          <div style=\x7b\x7b fontSize: 14, opacity: 0.9 \x7d\x7d>\x7bcondition\x7d</div>",
  "        </div>",
  "      </div>",
  "      <div style=\x7b\x7b display: \"flex\", gap: 16, fontSize: 13, opacity: 0.9 \x7d\x7d>",
  "        \x7btypeof reading?.wind_speed === \"number\" && <div>💨 \x7breading.wind_speed\x7d mph</div>\x7d",
  "        \x7btypeof reading?.humidity === \"number\" && <div>💧 \x7breading.humidity\x7d%</div>\x7d",
  "      </div>",
  "    </div>",
  "  );",
  "\x7d"]

end Registry

end TreeExport
